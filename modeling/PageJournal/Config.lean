import PageJournal.Fault
/-!
The settings of one store and the conditions under which it can run.
-/
namespace PageJournal

/-- How often the log is forced to disk. -/
inductive SyncPolicy where
  | perBatch
  | perRecord
  deriving DecidableEq, Repr

/-- What a full cache does with a new page. -/
inductive CachePolicy where
  /-- The least recently used page makes room. -/
  | evictOldest
  /-- The new page is refused. -/
  | refuseNew
  deriving DecidableEq, Repr

/-- Settings of a store. Times are in milliseconds. -/
structure Config where
  dataDir : String := "./walstore_data"
  pageSize : Nat := 8192
  /-- Valid page numbers lie below it. -/
  pageCount : PageId := 10
  /-- The length of generated payloads. -/
  payloadSize : Nat := 256
  /-- Zero turns the cache off. -/
  cacheCapacity : Nat := 64
  cachePolicy : CachePolicy := .evictOldest
  /-- The number of waiting records that wakes the log writer early. -/
  batchSize : Nat := 32
  flushInterval : Nat := 10
  syncPolicy : SyncPolicy := .perBatch
  checkpointInterval : Nat := 1000
  checkpointWorkers : Nat := 1
  /-- The number of threads that flush the pages of one checkpoint. -/
  flushThreads : Nat := 1
  /-- The pause between two transactions of one worker. -/
  transactionDelay : Nat := 1
  transactionWorkers : Nat := 4
  readerWorkers : Nat := 0
  seed : Option UInt64 := none
  /-- The longest wait for a lock; without it a wait is unbounded. -/
  lockTimeout : Option Nat := none
  deriving DecidableEq, Repr

/-- Why settings are refused. -/
inductive ConfigFault where
  | emptyPage
  | noPages
  | payloadExceedsPage (payloadSize pageSize : Nat)
  | emptyBatch
  | noWorker
  deriving DecidableEq, Repr

def ConfigFault.message : ConfigFault → String
  | .emptyPage => "page_size must be non-zero"
  | .noPages => "page_count must be non-zero"
  | .payloadExceedsPage payloadSize pageSize =>
    s!"payload_size {payloadSize} exceeds page_size {pageSize}"
  | .emptyBatch => "wal_batch_size must be non-zero"
  | .noWorker => "at least one transaction worker is required"

/-- The first condition that the settings break, if any. -/
def Config.problem (c : Config) : Option ConfigFault :=
  if c.pageSize = 0 then some .emptyPage
  else if c.pageCount = 0 then some .noPages
  else if c.pageSize < c.payloadSize then some (.payloadExceedsPage c.payloadSize c.pageSize)
  else if c.batchSize = 0 then some .emptyBatch
  else if c.transactionWorkers = 0 then some .noWorker
  else none

/-- Refuses settings that a store cannot run with. -/
def Config.validate (c : Config) : Except Fault Unit :=
  match c.problem with
  | some problem => .error (.configuration problem.message)
  | none => .ok ()

theorem Config.validate_eq_ok_iff {c : Config} :
    c.validate = .ok () ↔ c.pageSize ≠ 0 ∧ c.pageCount ≠ 0 ∧ c.payloadSize ≤ c.pageSize ∧
      c.batchSize ≠ 0 ∧ c.transactionWorkers ≠ 0 := by
  unfold validate problem
  grind

end PageJournal
