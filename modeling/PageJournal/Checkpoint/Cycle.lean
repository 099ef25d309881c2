import PageJournal.Checkpoint.Record
import PageJournal.EventLog
import PageJournal.Log.Sequence
import PageJournal.Page.Store
/-!
The checkpoint cycle: collect the dirty and the cached pages, flush each of them, and if all went
well log how far the log is covered. A page that fails to flush stays dirty, and then nothing is
logged.
-/
namespace PageJournal.Checkpoint

inductive Phase where
  | idle
  | collecting
  | flushing
  | logging
  deriving DecidableEq, Repr

/-- The open checkpoint log. A line that could not be written waits for the next one. -/
structure LogFile where
  file : Handle
  pending : Bytes
  deriving DecidableEq, Repr

/-- Opens the log behind what it already holds. -/
def LogFile.openAt (v : Volume) (p : Path) : Except IoFault (LogFile × Volume) := do
  let (file, v) ← v.openAppend p
  .ok (⟨file, []⟩, v)

/-- Appends a line and makes it durable. -/
def LogFile.append (log : LogFile) (line : Bytes) (v : Volume) :
    Except IoFault Unit × LogFile × Volume :=
  let waiting := log.pending ++ line
  match v.append log.file waiting with
  | .error cause => (.error cause, { log with pending := waiting }, v)
  | .ok v => (Volume.sync log.file, { log with pending := [] }, v)

structure Report where
  /-- Nothing if some page failed. -/
  record : Option Record
  flushed : Nat
  /-- The pages that failed, ascending. -/
  failed : List PageId
  deriving DecidableEq, Repr

/-- Whether every page was flushed and the cycle logged. -/
def Report.isComplete (r : Report) : Bool := r.record.isSome

structure Checkpointer where
  store : PageStore
  sequence : PageJournal.Log.Sequence
  log : LogFile
  phase : Phase := .idle
  /-- How many threads flush the pages of one cycle. -/
  flushThreads : Nat
  events : EventLog

abbrev Flush := PageId → PageStore → Except Fault Page × PageStore

/-- The outcome of flushing each page of a list. -/
abbrev Outcomes := List (PageId × Except Fault Unit)

namespace Checkpointer

/-- The pages to flush, ascending, and how many of them are dirty. -/
def collect (c : Checkpointer) : List PageId × Nat :=
  (c.store.cache.ids.foldl (fun pages page => insertPage page pages) c.store.dirty,
    c.store.dirty.length)

/-- The shares of the flushing threads: one share for one thread or one page, else shares of equal
size but the last. -/
def shares (threads : Nat) (pages : List PageId) : List (List PageId) :=
  if threads ≤ 1 || pages.length ≤ 1 then [pages]
  else chunks ((pages.length + threads - 1) / threads) pages

def flushPages (flush : Flush) : List PageId → PageStore → Outcomes × PageStore
  | [], s => ([], s)
  | page :: rest, s =>
    let (outcome, s) := flush page s
    let (outcomes, s) := flushPages flush rest s
    ((page, outcome.map fun _ => ()) :: outcomes, s)

/-- Flushes every share, and lists the outcomes in the order of the pages. -/
def flushShares (flush : Flush) : List (List PageId) → PageStore → Outcomes × PageStore
  | [], s => ([], s)
  | share :: rest, s =>
    let (outcomes, s) := flushPages flush share s
    let (more, s) := flushShares flush rest s
    (outcomes ++ more, s)

/-- The pages whose flush failed. -/
def failures (outcomes : Outcomes) : List PageId :=
  (outcomes.filter fun o => match o.2 with
    | .ok _ => false
    | .error _ => true).map (·.1)

def note (c : Checkpointer) (now : UInt64) (message : String) : Checkpointer :=
  { c with events := c.events.record now "checkpoint" message }

def count (c : Checkpointer) (counter : Counter) : Checkpointer :=
  { c with store := c.store.count counter }

def enter (c : Checkpointer) (phase : Phase) : Checkpointer := { c with phase }

/-- The cycle up to the flushes: how much was dirty, and what came of each page. -/
def flushAll (flush : Flush) (c : Checkpointer) : Nat × Outcomes × Checkpointer :=
  let (pages, dirtyPages) := (c.enter .collecting).collect
  let c := c.enter .flushing
  let (outcomes, store) := flushShares flush (shares (max c.flushThreads 1) pages) c.store
  (dirtyPages, outcomes, { c with store })

/-- The end of a cycle in which pages failed. -/
def giveUp (now : UInt64) (flushed : Nat) (failed : List PageId) (c : Checkpointer) :
    Report × Checkpointer :=
  let c := c.note now s!"incomplete: {flushed} flushed, {failed.length} failed"
  (⟨none, flushed, failed⟩, c.enter .idle)

/-- Logs the record of a cycle in which no page failed. -/
def logRecord (now : UInt64) (thread : UInt32) (dirtyPages : Nat) (c : Checkpointer) :
    Except Fault Record × Checkpointer :=
  let c := c.enter .logging
  let record : Record := ⟨now, thread, UInt64.ofNat dirtyPages, c.sequence.current⟩
  let (outcome, log, disk) := c.log.append record.line c.store.disk
  let c := { c with log, store := { c.store with disk } }.enter .idle
  match outcome with
  | .error cause => (.error (.io cause), c)
  | .ok _ => (.ok record, c)

/-- The end of a cycle that was logged. -/
def conclude (now : UInt64) (record : Record) (flushed : Nat) (c : Checkpointer) :
    Report × Checkpointer :=
  (⟨some record, flushed, []⟩,
    c.note now s!"thread={record.thread} pages={flushed} lsn={record.watermark} took=0us")

/-- One cycle with a given way to flush a page. -/
def cycleWith (flush : Flush) (now : UInt64) (thread : UInt32) (c : Checkpointer) :
    Except Fault Report × Checkpointer :=
  let (dirtyPages, outcomes, c) := c.flushAll flush
  let failed := failures outcomes
  let flushed := outcomes.length - failed.length
  if failed.isEmpty then
    match c.logRecord now thread dirtyPages with
    | (.error fault, c) => (.error fault, c)
    | (.ok record, c) =>
      let (report, c) := (c.count .checkpoints).conclude now record flushed
      (.ok report, c)
  else
    let c := failed.foldl (fun c _ => c.count .errors) c
    let (report, c) := c.giveUp now flushed failed
    (.ok report, c)

def cycle (now : UInt64) (thread : UInt32) (c : Checkpointer)
    (trouble : PageId → Trouble := fun _ => .none) : Except Fault Report × Checkpointer :=
  c.cycleWith (fun page s => s.flush page (trouble page)) now thread

/-- The size of the shares as a 64-bit word computes it, the sum first. -/
def shareSize (threads pages : Nat) : UInt64 :=
  (UInt64.ofNat pages + UInt64.ofNat threads - 1) / UInt64.ofNat threads

/-- The pages would go to several threads in shares that hold no page. -/
def breaksOff (c : Checkpointer) : Bool :=
  1 < c.flushThreads && 1 < c.collect.1.length &&
    shareSize c.flushThreads c.collect.1.length = 0

/-- One cycle, unless the process breaks it off for the size of its shares. -/
def attempt (now : UInt64) (thread : UInt32) (c : Checkpointer)
    (trouble : PageId → Trouble := fun _ => .none) :
    Option (Except Fault Report × Checkpointer) :=
  if c.breaksOff then none else some (c.cycle now thread trouble)

end Checkpointer

end PageJournal.Checkpoint
