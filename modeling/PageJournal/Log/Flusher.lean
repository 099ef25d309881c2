import PageJournal.EventLog
import PageJournal.Log.Buffer
import PageJournal.Log.Sequence
import PageJournal.Log.Writer
import PageJournal.Metrics
/-!
The log writer's round: swap out what waits, write it as one batch, then either acknowledge it or
put it back. Nothing is lost by a failure; a retry may repeat lines that reached the sink before.
-/
namespace PageJournal.Log

structure Flusher (σ : Type) where
  writer : Writer σ
  buffer : Buffer
  sequence : Sequence
  counters : Counters
  events : EventLog

/-- Every number of the batch is durable. -/
def Sequence.markBatch (s : Sequence) (batch : List Record) : Sequence :=
  batch.foldl (fun s r => s.markDurable r.lsn) s

/-- The counts after a batch was written. -/
def countBatch (m : Counters) (batch : List Record) (syncs : Nat) : Counters :=
  ((m.add .recordsWritten (UInt64.ofNat batch.length)).tick .batches).add .syncs
    (UInt64.ofNat syncs)

namespace Flusher

variable {σ : Type}

/-- A written batch: its numbers are durable and it is counted. -/
def acknowledge (f : Flusher σ) (batch : List Record) (syncs : Nat) : Flusher σ :=
  { f with
    sequence := f.sequence.markBatch batch
    counters := countBatch f.counters batch syncs }

def swap (f : Flusher σ) : List Record × Flusher σ :=
  let (batch, buffer) := f.buffer.swap
  (batch, { f with buffer })

/-- Writes a batch that was swapped out; one that fails goes back in front. -/
def deliver (io : Sink σ) (batch : List Record) (f : Flusher σ) :
    Except IoFault Nat × Flusher σ :=
  match f.writer.writeBatch io batch with
  | (.ok syncs, writer) => (.ok batch.length, { f with writer }.acknowledge batch syncs)
  | (.error cause, writer) => (.error cause, { f with writer, buffer := f.buffer.requeue batch })

/-- How a drain reports that its batch could not be written. -/
def writeFault (cause : IoFault) : Fault := .logWrite (Fault.io cause).message

/-- Writes everything that waits as one batch and tells its length. -/
def drain (io : Sink σ) (f : Flusher σ) : Except Fault Nat × Flusher σ :=
  let (batch, f) := f.swap
  if batch.isEmpty then (.ok 0, f)
  else
    let (outcome, f) := f.deliver io batch
    (outcome.mapError writeFault, f)

/-- One round of the background writer, once it is awake. A failure is counted and reported. -/
def round (io : Sink σ) (now : UInt64) (f : Flusher σ) : Flusher σ :=
  let f := { f with buffer := f.buffer.takeRequest.2 }
  match f.drain io with
  | (.ok _, f) => f
  | (.error fault, f) =>
    { f with
      counters := f.counters.tick .errors
      events := f.events.record now "wal" s!"batch write failed: {fault.message}" }

/-- The last drain of the background writer. -/
def finish (io : Sink σ) (now : UInt64) (f : Flusher σ) : Flusher σ :=
  let f := match f.drain io with
    | (.ok _, f) => f
    | (.error _, f) => { f with counters := f.counters.tick .errors }
  let written := s!"{f.writer.recordsWritten} records in {f.writer.batchesWritten} batches"
  { f with events := f.events.record now "wal" s!"writer stopped: {written}" }

/-- Rounds until `done` holds, at most `limit` of them. -/
def roundsUntil (io : Sink σ) (now : UInt64) (done : Flusher σ → Bool) :
    Nat → Flusher σ → Flusher σ
  | 0, f => f
  | limit + 1, f => if done f then f else roundsUntil io now done limit (f.round io now)

end Flusher

end PageJournal.Log
