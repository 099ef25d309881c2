import PageJournal.Proofs.Engine.Delivery
import PageJournal.Proofs.Engine.Numbered
import PageJournal.Proofs.Engine.Settled
import PageJournal.Proofs.Engine.Unbroken

/-! What the background log writer and a close do to an engine whose files are in their places. Everything that
waits goes to the log as it is, and neither the pages nor their copies change. -/
namespace PageJournal

open Log

/-- A counter that only the writing of batches moves. -/
def Counter.ofBatches : Counter → Bool
  | .recordsWritten | .batches | .syncs => true
  | .transactions | .reads | .writes | .cacheHits | .cacheMisses | .checkpoints | .errors => false

namespace Log

theorem get_countBatch {c : Counter} (other : c.ofBatches = false) (m : Counters) (batch : List Record)
    (syncs : Nat) : (countBatch m batch syncs).get c = m.get c := by
  cases c with
  | recordsWritten | batches | syncs => cases other
  | transactions | reads | writes | cacheHits | cacheMisses | checkpoints | errors => rfl

/-- A log writer that has written everything that waited. -/
structure Drained (k : Nat) (f after : Flusher Volume) : Prop where
  disk : f.writer.sink.append (.file k) (f.buffer.records.flatMap Record.line) = .ok after.writer.sink
  waiting : after.buffer.records = []
  written : after.counters.recordsWritten =
    f.counters.recordsWritten + UInt64.ofNat f.buffer.records.length
  counters : ∀ c : Counter, c.ofBatches = false → after.counters.get c = f.counters.get c
  next : after.sequence.next = f.sequence.next
  events : after.events.file = f.events.file

variable {k : Nat} {f after : Flusher Volume}

theorem drained_drain (k : Nat) (f : Flusher Volume) :
    ∃ n after, f.drain (.ofHandle (.file k)) = (.ok n, after) ∧ Drained k f after := by
  by_cases none : f.buffer.records = []
  · refine ⟨0, f, Session.drain_nothing _ none, ?_, none, ?_, fun _ _ => rfl, rfl, rfl⟩
    · rw [none]
      exact f.writer.sink.append_nil k
    · rw [none]
      exact (UInt64.add_zero _).symm
  · obtain ⟨writer, done, disk⟩ := writePieces_file k (pieces f.writer.policy f.buffer.records) f.writer
    rw [flatten_pieces] at disk
    have full : f.buffer.records.isEmpty = false := by simpa using none
    unfold Flusher.drain Flusher.deliver Writer.writeBatch
    simp only [Flusher.swap, Buffer.swap, full, Bool.false_eq_true, if_false, done, Except.mapError]
    exact ⟨_, _, rfl, disk, rfl, rfl, fun c other => get_countBatch other _ _ _,
      Session.next_markBatch _ _, rfl⟩

theorem drained_round (k : Nat) (f : Flusher Volume) (now : UInt64) :
    Drained k f (f.round (.ofHandle (.file k)) now) := by
  obtain ⟨n, after, done, drained⟩ := drained_drain k { f with buffer := f.buffer.takeRequest.2 }
  unfold Flusher.round
  simp only [done]
  exact ⟨drained.disk, drained.waiting, drained.written, drained.counters, drained.next, drained.events⟩

theorem drained_finish (k : Nat) (f : Flusher Volume) (now : UInt64) :
    Drained k f (f.finish (.ofHandle (.file k)) now) := by
  obtain ⟨n, after, done, drained⟩ := drained_drain k f
  unfold Flusher.finish
  simp only [done]
  exact ⟨drained.disk, drained.waiting, drained.written, drained.counters, drained.next, drained.events⟩

end Log

namespace Engine

open Volume

/-- Nothing happened to the pages, to their copies and to the numbers. -/
structure Attends (home : Path) (e after : Engine) : Prop where
  furnished : Furnished e after
  store : after.store = { e.store with disk := after.store.disk, counters := after.store.counters }
  pages : ∀ name, after.store.disk.entry? ((home.child pagesName).child name) =
    e.store.disk.entry? ((home.child pagesName).child name)
  next : after.sequence.next = e.sequence.next
  transaction : after.nextTransaction = e.nextTransaction

/-- Everything that waited has gone to the log. -/
structure Drains (home : Path) (e after : Engine) : Prop extends Attends home e after where
  waiting : after.buffer.records = []
  written : after.store.counters.recordsWritten =
    e.store.counters.recordsWritten + UInt64.ofNat e.buffer.records.length
  counters : ∀ c : Counter, c.ofBatches = false → after.store.counters.get c = e.store.counters.get c

/-- Nothing was counted and nothing logged. -/
structure Quiet (home : Path) (e after : Engine) : Prop extends Attends home e after where
  waiting : after.buffer.records = e.buffer.records
  counters : after.store.counters = e.store.counters

variable {home : Path} {log marks : Bytes} {e mid after : Engine}

theorem Furnished.trans (first : Furnished e mid) (later : Furnished mid after) : Furnished e after :=
  ⟨later.dir.trans first.dir, later.pages.trans first.pages, later.writer.trans first.writer,
    later.checkpoints.trans first.checkpoints, later.events.trans first.events⟩

theorem Attends.trans (first : Attends home e mid) (later : Attends home mid after) :
    Attends home e after where
  furnished := first.furnished.trans later.furnished
  store := by
    have same := later.store
    rw [first.store] at same
    exact same
  pages name := (later.pages name).trans (first.pages name)
  next := later.next.trans first.next
  transaction := later.transaction.trans first.transaction

theorem Drains.trans (first : Drains home e mid) (later : Drains home mid after) : Drains home e after where
  toAttends := first.toAttends.trans later.toAttends
  waiting := later.waiting
  written := by
    rw [later.written, first.written, first.waiting]
    exact UInt64.add_zero _
  counters c other := (later.counters c other).trans (first.counters c other)

theorem Quiet.trans (first : Quiet home e mid) (later : Quiet home mid after) : Quiet home e after :=
  ⟨first.toAttends.trans later.toAttends, later.waiting.trans first.waiting,
    later.counters.trans first.counters⟩

theorem Quiet.drains (first : Quiet home e mid) (later : Drains home mid after) : Drains home e after where
  toAttends := first.toAttends.trans later.toAttends
  waiting := later.waiting
  written := by rw [later.written, first.waiting, first.counters]
  counters c other := by rw [later.counters c other, first.counters]

theorem Drains.quiet (first : Drains home e mid) (later : Quiet home mid after) : Drains home e after where
  toAttends := first.toAttends.trans later.toAttends
  waiting := later.waiting.trans first.waiting
  written := by rw [later.counters, first.written]
  counters c other := by rw [later.counters, first.counters c other]

/-- A log writer on the engine's own file. -/
theorem Settled.drains (settled : e.Settled home log marks) {f : Flusher Volume}
    (done : ∀ k, e.writer.sink = .file k → Drained k e.flusher f) (running : Bool) (clock : Clock) :
    Drains home e { e.withFlusher f with running, clock } ∧ Settled home
      (log ++ e.buffer.records.flatMap Record.line) marks { e.withFlusher f with running, clock } := by
  obtain ⟨k, sink, -⟩ := settled.log
  have drained := done k sink
  have furnished : Furnished e { e.withFlusher f with running, clock } :=
    ⟨rfl, rfl, rfl, rfl, drained.events⟩
  obtain ⟨after, appends⟩ := settled.appendLog sink drained.disk furnished rfl
  refine ⟨⟨⟨furnished, rfl, fun name => ?_, drained.next, rfl⟩, drained.waiting, drained.written,
    drained.counters⟩, after⟩
  exact appends.elsewhere _ (child_ne_grandchild home logName pagesName name).symm

theorem Settled.writerRound (settled : e.Settled home log marks) :
    Drains home e e.writerRound ∧
      e.writerRound.Settled home (log ++ e.buffer.records.flatMap Record.line) marks := by
  have rounded : ∀ k, e.writer.sink = .file k → Drained k e.flusher (e.flusher.round e.sink e.now.1) := by
    intro k sink
    have own : e.sink = .ofHandle (.file k) := congrArg _ sink
    rw [own]
    exact drained_round k _ _
  exact settled.drains rounded e.running e.now.2.clock

/-- The log writer drains for the last time and is gone. -/
theorem Settled.joinServices (settled : e.Settled home log marks) (running : e.running = true) :
    Drains home e e.joinServices ∧
      e.joinServices.Settled home (log ++ e.buffer.records.flatMap Record.line) marks := by
  obtain ⟨first, settled⟩ := settled.writerRound
  have finished : ∀ k, e.writerRound.writer.sink = .file k → Drained k e.writerRound.flusher
      (e.writerRound.flusher.finish e.writerRound.sink e.writerRound.now.1) := by
    intro k sink
    have own : e.writerRound.sink = .ofHandle (.file k) := congrArg _ sink
    rw [own]
    exact drained_finish k _ _
  have last := settled.drains finished false e.writerRound.now.2.clock
  have same : e.joinServices = _ := if_pos running
  rw [first.waiting, List.flatMap_nil, List.append_nil] at last
  rw [same]
  exact ⟨first.trans last.1, last.2⟩

/-- Time passes, or an event is noted. -/
theorem Settled.quiet (settled : e.Settled home log marks) (after : Engine) (furnished : Furnished e after)
    (store : after.store = e.store) (buffer : after.buffer = e.buffer) (sequence : after.sequence = e.sequence)
    (transaction : after.nextTransaction = e.nextTransaction) :
    Quiet home e after ∧ after.Settled home log marks := by
  refine ⟨⟨⟨furnished, ?_, fun name => ?_, ?_, transaction⟩, ?_, ?_⟩, settled.congr furnished ?_⟩
  · rw [store]
  · rw [store]
  · rw [sequence]
  · rw [buffer]
  · rw [store]
  · rw [store]

theorem Settled.flushEvents (settled : e.Settled home log marks) :
    Quiet home e e.flushEvents ∧ e.flushEvents.Settled home log marks := by
  obtain ⟨k, reversed, file, there⟩ := settled.events
  obtain ⟨same, disk⟩ := flush_cases e.events e.store.disk
  have furnished : Furnished e e.flushEvents := ⟨rfl, rfl, rfl, rfl, same⟩
  rcases disk with disk | ⟨more, appended⟩
  · refine ⟨⟨⟨furnished, rfl, fun name => ?_, rfl, rfl⟩, rfl, rfl⟩, settled.congr furnished disk⟩
    exact congrArg (fun v => Volume.entry? v _) disk
  · rw [file] at appended
    obtain ⟨reached, appends⟩ := settled.append there appended
    refine ⟨⟨⟨furnished, rfl, fun name => ?_, rfl, rfl⟩, rfl, rfl⟩,
      ⟨⟨reached.leads, reached.tended⟩, ?_, ?_, ?_⟩⟩
    · exact appends.elsewhere _ (child_ne_grandchild home eventLogName pagesName name).symm
    · obtain ⟨k, sink, log⟩ := settled.log
      exact ⟨k, sink, (appends.elsewhere _ (child_ne_child (by decide))).trans log⟩
    · obtain ⟨k, checkpoints, marks⟩ := settled.marks
      exact ⟨k, checkpoints, (appends.elsewhere _ (child_ne_child (by decide))).trans marks⟩
    · exact ⟨k, _, same.trans file, appends.here k reversed there⟩

theorem Settled.requestStop (settled : e.Settled home log marks) :
    Quiet home e e.requestStop ∧ e.requestStop.Settled home log marks := by
  refine settled.quiet _ ?_ (by simp) (by simp) (by simp) (by simp)
  unfold Engine.requestStop
  split <;> exact ⟨rfl, rfl, rfl, rfl, rfl⟩

/-- A close goes through and leaves nothing waiting. -/
theorem Settled.close (settled : e.Settled home log marks) (running : e.running = true) :
    ∃ after, e.close = (.ok (), after) ∧ Drains home e after ∧
      after.Settled home (log ++ e.buffer.records.flatMap Record.line) marks := by
  obtain ⟨asked, settled⟩ := settled.requestStop
  obtain ⟨joined, settled⟩ := settled.joinServices (by simpa using running)
  rw [asked.waiting] at settled
  -- the log writer's last round wrote what waited, so the close's own drain finds nothing
  have drained : e.requestStop.joinServices.drainRemaining = (.ok 0, e.requestStop.joinServices) :=
    if_pos (List.isEmpty_iff.mpr joined.waiting)
  obtain ⟨flushed, settled⟩ := settled.flushEvents
  obtain ⟨noted, settled⟩ := settled.quiet
    (e.requestStop.joinServices.flushEvents.note "engine" "closed") ⟨rfl, rfl, rfl, rfl, rfl⟩ rfl rfl rfl rfl
  obtain ⟨last, settled⟩ := settled.flushEvents
  refine ⟨_, ?_, (asked.drains joined).quiet ((flushed.trans noted).trans last), settled⟩
  unfold Engine.close
  simp only [running, drained, if_true]

/-- A generator chooses what is begun. -/
theorem generate_eq_begin (e : Engine) (g : Generator) (thread : UInt32) :
    ∃ operation page payload, (e.generate g thread).1 = (e.begin thread operation page payload).1 ∧
      (e.generate g thread).2.2 = (e.begin thread operation page payload).2 := by
  unfold Engine.generate Generator.transaction
  dsimp only
  exact ⟨_, _, _, rfl, rfl⟩

/-- What becomes of a transaction that is executed while something else goes on in between: behind its first
record, behind its operation, and while its second record has its number and is not added yet. -/
inductive Executes (meanwhile : Engine → Engine → Prop) (e : Engine) (t : Transaction) :
    Except Fault Transaction → Engine → Prop
  | abandoned {a b : Engine} {trouble : Trouble} {fault : Fault} (intended : meanwhile (e.log t t.lsn) a)
      (failed : (a.apply t trouble).1 = .error fault) (applied : meanwhile (a.apply t trouble).2 b) :
      Executes meanwhile e t (.error fault) (b.abandon t fault)
  | committed {a b c : Engine} {trouble : Trouble} (intended : meanwhile (e.log t t.lsn) a)
      (done : (a.apply t trouble).1 = .ok ()) (applied : meanwhile (a.apply t trouble).2 b)
      (numbered : meanwhile b.allocateLsn.2 c) :
      Executes meanwhile e t (.ok t.commit) ((c.log t.commit b.allocateLsn.1).count .transactions)

/-- With nothing in between it is the engine's own execution. -/
theorem executes_execute {meanwhile : Engine → Engine → Prop} (none : ∀ e, meanwhile e e) (e : Engine)
    (t : Transaction) (trouble : Trouble) :
    Executes meanwhile e t (e.execute t trouble).1 (e.execute t trouble).2 := by
  unfold Engine.execute
  rcases applied : (e.log t t.lsn).apply t trouble with ⟨fault | ⟨⟩, a⟩
  · have failed : ((e.log t t.lsn).apply t trouble).1 = .error fault := congrArg Prod.fst applied
    have run := Executes.abandoned (none (e.log t t.lsn)) failed (none _)
    rw [applied] at run
    exact run
  · have done : ((e.log t t.lsn).apply t trouble).1 = .ok () := congrArg Prod.fst applied
    have run := Executes.committed (none (e.log t t.lsn)) done (none _) (none _)
    rw [applied] at run
    exact run

end Engine

end PageJournal
