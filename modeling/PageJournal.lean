import PageJournal.Checkpoint.Observed
import PageJournal.Engine.Background
import PageJournal.Proofs.Checkpoint.Watermark
import PageJournal.Proofs.Engine.Budget
import PageJournal.Proofs.Engine.Counted
import PageJournal.Proofs.Engine.Fresh
import PageJournal.Proofs.Engine.Overlap
import PageJournal.Proofs.Engine.Range
import PageJournal.Proofs.Engine.Told
import PageJournal.Proofs.Log.Reading
import PageJournal.Proofs.Log.Replay
import PageJournal.Proofs.Log.Retry
import PageJournal.Proofs.Log.Scraps
import PageJournal.Proofs.Page.Available
import PageJournal.Proofs.Page.Interleaving
import PageJournal.Proofs.Checkpoint.Reading
import PageJournal.Proofs.Log.Locality
import PageJournal.Proofs.Log.Written
import PageJournal.Proofs.Checkpoint.Crew
import PageJournal.Proofs.Page.Dirty
import PageJournal.Proofs.Engine.Abandoned
import PageJournal.Proofs.Page.Policy
import PageJournal.Proofs.Log.Wakeup
import PageJournal.Proofs.Page.Handles
import PageJournal.Proofs.Page.Inclusion
import PageJournal.Proofs.Engine.Fitting
import PageJournal.Proofs.Engine.Deletion
