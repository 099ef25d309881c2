import PageJournal.Proofs.Checkpoint.Reading
import PageJournal.Proofs.Engine.Services

/-! What a checkpoint cycle does to an engine whose files are in their places: it always reports, it appends
one line to the checkpoint log if and only if the report is complete, and it counts one error for each page
that failed. -/
namespace PageJournal

namespace Counters

/-- The counters after these were moved, one by one. -/
def tickAll (m : Counters) (ticks : List Counter) : Counters := ticks.foldl tick m

theorem get_tickAll (m : Counters) (ticks : List Counter) (c : Counter) :
    (m.tickAll ticks).get c = m.get c + UInt64.ofNat (ticks.count c) := by
  induction ticks generalizing m with
  | nil => exact (UInt64.add_zero _).symm
  | cons first rest ih =>
    have later : (m.tickAll (first :: rest)).get c = (m.tick first).get c + UInt64.ofNat (rest.count c) :=
      ih (m.tick first)
    rw [later, get_tick]
    by_cases own : c = first
    · subst own
      rw [if_pos rfl, List.count_cons_self, Nat.add_comm, UInt64.ofNat_add, UInt64.add_assoc]
      rfl
    · rw [if_neg own, List.count_cons_of_ne (Ne.symm own)]

end Counters

namespace Checkpoint

open Log (lineFeed)

/-- What a cycle counts: the line that it wrote, or the pages that failed. -/
def Report.ticks (r : Report) : List Counter :=
  (r.record.toList.map fun _ => .checkpoints) ++ r.failed.map fun _ => .errors

theorem Report.count_ticks (r : Report) (c : Counter) : r.ticks.count c =
    match c with
    | .checkpoints => if r.isComplete then 1 else 0
    | .errors => r.failed.length
    | _ => 0 := by
  rcases r with ⟨_ | record, flushed, failed⟩
  all_goals cases c <;> simp [ticks, isComplete, List.count_replicate]

/-- The lines of a report in the checkpoint log. -/
def Report.lines (r : Report) : Bytes := r.record.toList.flatMap Record.line

theorem Report.lines_complete (record : Record) (flushed : Nat) (failed : List PageId) :
    Report.lines ⟨some record, flushed, failed⟩ = record.line := List.append_nil _

theorem Report.count_lines (r : Report) : r.lines.count lineFeed = if r.isComplete then 1 else 0 := by
  rcases r with ⟨_ | record, flushed, failed⟩
  · rfl
  · simp [Report.lines, Report.isComplete, record.count_line]

end Checkpoint

namespace PageStore

theorem flush_counters (s : PageStore) (page : PageId) (t : Trouble) :
    (s.flush page t).2.counters = s.counters := by
  obtain ⟨disk, dirty, frame⟩ := s.flush_frame page t
  rw [frame]

end PageStore

namespace Checkpoint.Checkpointer

open Volume PageStore

variable {c : Checkpointer} {trouble : PageId → Trouble}

theorem flushPages_counters (pages : List PageId) (s : PageStore) :
    (flushPages (fun page s => s.flush page (trouble page)) pages s).2.counters = s.counters := by
  induction pages generalizing s with
  | nil => rfl
  | cons page rest ih => exact (ih _).trans (s.flush_counters page _)

theorem count_foldl (pages : List PageId) (c : Checkpointer) :
    pages.foldl (fun c _ => c.count .errors) c = { c with store := { c.store with
      counters := c.store.counters.tickAll (pages.map fun _ => .errors) } } := by
  induction pages generalizing c with
  | nil => rfl
  | cons page rest ih => exact ih (c.count .errors)

/-- What came of flushing each page that was collected. -/
def outcomes (c : Checkpointer) (trouble : PageId → Trouble) : Outcomes :=
  (flushPages (fun page s => s.flush page (trouble page)) c.collect.1 c.store).1

/-- The store when all pages have been flushed. -/
def flushedStore (c : Checkpointer) (trouble : PageId → Trouble) : PageStore :=
  (flushPages (fun page s => s.flush page (trouble page)) c.collect.1 c.store).2

theorem flushAll_eq (c : Checkpointer) (trouble : PageId → Trouble) :
    c.flushAll (fun page s => s.flush page (trouble page)) = (c.store.dirty.length, c.outcomes trouble,
      { c with phase := .flushing, store := c.flushedStore trouble }) := by
  unfold flushAll outcomes flushedStore
  dsimp only
  rw [flushShares_eq, flatten_shares]
  rfl

/-- The report of a cycle, by what came of the flushes. -/
def reportOf (c : Checkpointer) (now : UInt64) (thread : UInt32) (trouble : PageId → Trouble) : Report :=
  let failed := failures (c.outcomes trouble)
  { record := if failed = [] then
      some ⟨now, thread, .ofNat c.store.dirty.length, c.sequence.current⟩ else none
    flushed := (c.outcomes trouble).length - failed.length
    failed }

theorem isComplete_reportOf (c : Checkpointer) (now : UInt64) (thread : UInt32) (trouble : PageId → Trouble) :
    (c.reportOf now thread trouble).isComplete = decide ((c.reportOf now thread trouble).failed = []) := by
  unfold reportOf Report.isComplete
  dsimp only
  split
  · next none => rw [none]; rfl
  · next some => simp [some]

theorem logRecord_file {j : Nat} (log : c.log = ⟨.file j, []⟩) (now : UInt64) (thread : UInt32)
    (dirtyPages : Nat) :
    let record : Record := ⟨now, thread, .ofNat dirtyPages, c.sequence.current⟩
    ∃ disk, c.store.disk.append (.file j) record.line = .ok disk ∧
      c.logRecord now thread dirtyPages =
        (.ok record, { c with store := { c.store with disk }, phase := .idle }) := by
  obtain ⟨store, sequence, file, phase, flushThreads, events⟩ := c
  cases log
  exact ⟨_, rfl, rfl⟩

/-- A cycle on a checkpoint log that is an open file. -/
structure Cycled (j : Nat) (flushed : PageStore) (c : Checkpointer) (report : Report)
    (after : Checkpointer) : Prop where
  log : after.log = c.log
  sequence : after.sequence = c.sequence
  threads : after.flushThreads = c.flushThreads
  events : after.events.file = c.events.file
  store : after.store = { flushed with disk := after.store.disk, counters := after.store.counters }
  disk : flushed.disk.append (.file j) report.lines = .ok after.store.disk
  counters : after.store.counters = c.store.counters.tickAll report.ticks

theorem cycled_cycle {j : Nat} (log : c.log = ⟨.file j, []⟩) (now : UInt64) (thread : UInt32)
    (trouble : PageId → Trouble) :
    ∃ after, c.cycle now thread trouble = (.ok (c.reportOf now thread trouble), after) ∧
      Cycled j (c.flushedStore trouble) c (c.reportOf now thread trouble) after := by
  have counters : (c.flushedStore trouble).counters = c.store.counters := flushPages_counters _ _
  unfold Checkpointer.cycle cycleWith
  rw [flushAll_eq]
  unfold reportOf
  dsimp only
  generalize failures (c.outcomes trouble) = failed
  cases failed with
  | nil =>
    obtain ⟨disk, appended, logged⟩ := logRecord_file
      (c := { c with phase := .flushing, store := c.flushedStore trouble }) log now thread
      c.store.dirty.length
    dsimp only [List.isEmpty_nil]
    rw [if_pos rfl, if_pos rfl, logged]
    refine ⟨_, rfl, rfl, rfl, rfl, rfl, rfl, ?_, ?_⟩
    · rw [Report.lines_complete]
      exact appended
    · exact congrArg (fun m => m.tick .checkpoints) counters
  | cons page rest =>
    rw [List.isEmpty_cons, if_neg Bool.false_ne_true, if_neg (List.cons_ne_nil _ _), count_foldl]
    refine ⟨_, rfl, rfl, rfl, rfl, rfl, rfl, (c.flushedStore trouble).disk.append_nil j, ?_⟩
    exact congrArg (fun m : Counters => m.tickAll ((page :: rest).map fun _ => .errors)) counters

end Checkpoint.Checkpointer

namespace Engine

open Volume PageStore Checkpoint

variable {home : Path} {log marks : Bytes} {e : Engine}

/-- A cycle has been reported. -/
structure Reported (e : Engine) (report : Report) (after : Engine) : Prop where
  furnished : Furnished e after
  buffer : after.buffer = e.buffer
  running : after.running = e.running
  sequence : after.sequence = e.sequence
  transaction : after.nextTransaction = e.nextTransaction
  size : after.store.pageSize = e.store.pageSize
  pages : after.store.pageCount = e.store.pageCount
  counters : after.store.counters = e.store.counters.tickAll report.ticks

theorem Settled.cycle (settled : e.Settled home log marks) (thread : UInt32) (trouble : PageId → Trouble) :
    ∃ report after, e.cycle thread trouble = (.ok report, after) ∧ Reported e report after ∧
      after.Settled home log (marks ++ report.lines) := by
  obtain ⟨j, file, there⟩ := settled.marks
  obtain ⟨c, done, cycled⟩ :=
    Checkpointer.cycled_cycle (c := e.now.2.checkpointer) file e.now.1 thread trouble
  have works : Works e.dir home (home.child pagesName) e.store (e.now.2.checkpointer.flushedStore trouble) :=
    settled.reached.flushPages trouble _
  generalize e.now.2.checkpointer.flushedStore trouble = flushed at cycled works
  have store := cycled.store
  have place : c.store.dir = e.store.dir := by rw [store, works.dir]
  have furnished : Furnished e (e.now.2.withCheckpointer c) :=
    ⟨rfl, place, rfl, cycled.log, cycled.events⟩
  -- the pages are flushed first, and then the line is appended
  have mid : Settled home log marks { e with store := flushed } :=
    settled.works ⟨rfl, works.dir, rfl, rfl, rfl⟩ works
  obtain ⟨own, writer, marked⟩ := mid.marks
  cases file.symm.trans writer
  obtain ⟨reached, appends⟩ := mid.append marked cycled.disk
  refine ⟨_, e.now.2.withCheckpointer c, ?_, ⟨furnished, rfl, rfl, cycled.sequence, rfl, ?_, ?_,
    cycled.counters⟩, ⟨⟨reached.leads, ?_⟩, ?_, ⟨j, cycled.log.trans file, ?_⟩, ?_⟩⟩
  · unfold Engine.cycle
    simp only [done]
  · exact (congrArg PageStore.pageSize store).trans works.size
  · exact (congrArg PageStore.pageCount store).trans works.pages
  · have same : c.store.dir = flushed.dir := by rw [store]
    exact same ▸ reached.tended
  · obtain ⟨k, sink, there⟩ := mid.log
    exact ⟨k, sink, (appends.elsewhere _ (child_ne_child (by decide))).trans there⟩
  · rw [List.reverse_append]
    exact appends.here j _ marked
  · obtain ⟨k, reversed, events, there⟩ := mid.events
    exact ⟨k, reversed, cycled.events.trans events,
      (appends.elsewhere _ (child_ne_child (by decide))).trans there⟩

/-- A checkpoint on behalf of the caller is a cycle, and never a failure to count. -/
theorem Settled.checkpoint (settled : e.Settled home log marks) (thread : UInt32) (trouble : PageId → Trouble) :
    e.checkpoint thread trouble = e.cycle thread trouble := by
  obtain ⟨report, after, cycled, -⟩ := settled.cycle thread trouble
  rw [Engine.checkpoint, cycled, countFailure]

end Engine

end PageJournal
