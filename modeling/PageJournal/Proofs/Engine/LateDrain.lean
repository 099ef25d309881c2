import PageJournal.Proofs.Engine.Delivery
import PageJournal.Proofs.Engine.Session

/-! A close whose last drain fails. The log's file may refuse to open, and each call on it may fail. A batch
that is refused goes back to the buffer; only a file that cannot be opened costs the records. -/
namespace PageJournal

open Log

/-- The log's own file, for which the disk has no room. -/
def Engine.Access.full : Access := ⟨Volume.openAppend, fun _ => Sink.ofHandle (.device .full)⟩

theorem Log.Flusher.deliver_failed {σ : Type} {io : Sink σ} {batch : List Record} {f after : Flusher σ}
    {cause : IoFault} (failed : f.deliver io batch = (.error cause, after)) :
    after.buffer = f.buffer.requeue batch ∧ after.sequence = f.sequence ∧
      after.counters = f.counters := by
  unfold Flusher.deliver at failed
  split at failed
  · cases failed
  · cases failed
    exact ⟨rfl, rfl, rfl⟩

namespace Engine

/-- A failure that costs no record: it is counted, and everything else is as it was. -/
structure Retains (e after : Engine) : Prop where
  waiting : after.buffer.records = e.buffer.records
  durable : after.sequence.durable = e.sequence.durable
  errors : after.store.counters.get .errors = e.store.counters.get .errors + 1
  others : ∀ c, c ≠ .errors → after.store.counters.get c = e.store.counters.get c

/-- A batch that was taken out and then never handed to anyone; no counter tells. -/
structure Forgets (e after : Engine) : Prop where
  lost : e.buffer.records ≠ []
  waiting : after.buffer.records = []
  sequence : after.sequence = e.sequence
  counters : after.store.counters = e.store.counters

theorem Retains.not_forgets {e after : Engine} (retains : e.Retains after) : ¬ e.Forgets after :=
  fun forgets => forgets.lost (retains.waiting.symm.trans forgets.waiting)

/-- Which step of the last drain fails decides what becomes of the records. -/
theorem drainRemaining_failed {a : Access} {e after : Engine} {fault : Fault}
    (failed : e.drainRemaining a = (.error fault, after)) :
    if (a.opening e.store.disk e.logPath).isOk then e.Retains after else e.Forgets after := by
  have waiting : e.buffer.records ≠ [] := by
    intro none
    rw [drainRemaining_nothing none] at failed
    cases failed
  rw [drainRemaining_some waiting] at failed
  rcases opens : a.opening e.store.disk e.logPath with cause | ⟨file, disk⟩
  · rw [deliverLate_refused (e := e.emptied) opens] at failed
    cases failed
    exact ⟨waiting, rfl, rfl, rfl⟩
  · rcases delivered : (e.emptied.lateWriter disk).deliver (a.calls file) e.buffer.records with
      ⟨cause | n, late⟩
    · rw [deliverLate_failed (e := e.emptied) opens delivered] at failed
      cases failed
      obtain ⟨buffer, sequence, counters⟩ := Flusher.deliver_failed delivered
      have counted : ∀ c, (late.counters.tick .errors).get c =
          if c = .errors then e.store.counters.get c + 1 else e.store.counters.get c := by
        intro c
        rw [Counters.get_tick, counters]
        rfl
      refine ⟨?_, congrArg Sequence.durable sequence, counted .errors, fun c other => ?_⟩
      · exact (congrArg Buffer.records buffer).trans (List.append_nil _)
      · exact (counted c).trans (if_neg other)
    · rw [deliverLate_written (e := e.emptied) opens delivered] at failed
      cases failed

/-- Once the services are gone, only the last drain is left of a close. -/
theorem close_stopped (a : Access) {e : Engine} (stopped : e.running = false) :
    e.close a = match e.requestStop.drainRemaining a with
      | (.error fault, after) => (.error fault, after)
      | (.ok _, after) => (.ok (), after.flushEvents) := by
  have joined : e.requestStop.joinServices = e.requestStop := joinServices_of_stopped (by simpa)
  rw [close, joined, stopped]
  rfl

theorem Layout.deliverLate {home : Path} {k : Nat} {bytes : Bytes} {e : Engine}
    (layout : e.Layout home k bytes) (batch : List Record) :
    ∃ n after, e.deliverLate batch = (.ok n, after) ∧ after.buffer = e.buffer ∧
      after.Layout home k (bytes ++ batch.flatMap Record.line) := by
  have opens : Access.ordinary.opening e.store.disk e.logPath = .ok (.file k, e.store.disk) :=
    layout.openAppend
  obtain ⟨late, delivered, buffer, events, grown⟩ :=
    layout.deliver batch (f := e.lateWriter e.store.disk) rfl
  exact ⟨_, _, deliverLate_written opens delivered, buffer,
    grown.congr rfl rfl rfl rfl (congrArg EventLog.file events)⟩

theorem Layout.drainRemaining {home : Path} {k : Nat} {bytes : Bytes} {e : Engine}
    (layout : e.Layout home k bytes) :
    ∃ n after, e.drainRemaining = (.ok n, after) ∧
      after.Layout home k (bytes ++ e.buffer.records.flatMap Record.line) := by
  by_cases none : e.buffer.records = []
  · exact ⟨0, e, drainRemaining_nothing none, by simpa [none] using layout⟩
  · have emptied : e.emptied.Layout home k bytes := layout.congr rfl rfl rfl rfl rfl
    obtain ⟨n, after, delivered, -, grown⟩ := emptied.deliverLate e.buffer.records
    exact ⟨n, after, (drainRemaining_some none).trans delivered, grown⟩

/-- A close that finds the log as it was opened hands over everything that waits. -/
theorem Layout.close_stopped {home : Path} {k : Nat} {bytes : Bytes} {e : Engine}
    (layout : e.Layout home k bytes) (stopped : e.running = false) :
    ∃ closed, e.close = (.ok (), closed) ∧
      closed.store.disk.read closed.logPath =
        .ok (bytes ++ e.buffer.records.flatMap Record.line) := by
  obtain ⟨n, after, drained, grown⟩ := layout.requestStop.drainRemaining
  refine ⟨after.flushEvents, ?_, ?_⟩
  · rw [Engine.close_stopped .ordinary stopped, drained]
  · rw [grown.flushEvents.read, requestStop_buffer]

/-- Whatever fails in the last drain of a close, the records stay where they were and the failure is
counted, exactly if the log could be opened; then a close that finds the log again writes them, in
front of what was added since. A log that cannot be opened costs the records. -/
theorem close_retains_iff (a : Access) {e after : Engine} {fault : Fault}
    (stopped : e.running = false) (failed : e.close a = (.error fault, after)) :
    (e.Retains after ↔ (a.opening e.store.disk e.logPath).isOk = true) ∧
      ((a.opening e.store.disk e.logPath).isOk = false → e.Forgets after) ∧
      (e.Retains after → ∀ (later : Engine) (more : List Record) (home : Path) (k : Nat) (bytes : Bytes),
        later.running = false → later.buffer.records = after.buffer.records ++ more →
        later.Layout home k bytes →
        ∃ closed, later.close = (.ok (), closed) ∧ closed.store.disk.read closed.logPath =
          .ok (bytes ++ (e.buffer.records ++ more).flatMap Record.line)) := by
  have drained : e.requestStop.drainRemaining a = (.error fault, after) := by
    rw [close_stopped a stopped] at failed
    split at failed
    · next drained =>
      cases failed
      exact drained
    · cases failed
  have outcome := drainRemaining_failed drained
  have retains : e.requestStop.Retains after → e.Retains after := by
    rintro ⟨waiting, durable, errors, others⟩
    simp only [requestStop_buffer, requestStop_sequence, requestStop_store] at *
    exact ⟨waiting, durable, errors, others⟩
  have forgets : e.requestStop.Forgets after → e.Forgets after := by
    rintro ⟨lost, waiting, sequence, counters⟩
    simp only [requestStop_buffer, requestStop_sequence, requestStop_store] at *
    exact ⟨lost, waiting, sequence, counters⟩
  rw [requestStop_store, requestStop_logPath] at outcome
  refine ⟨?_, ?_, ?_⟩
  · cases opens : (a.opening e.store.disk e.logPath).isOk with
    | true => simpa [opens] using retains (by simpa [opens] using outcome)
    | false =>
      have lost := forgets (by simpa [opens] using outcome)
      simpa using fun kept : e.Retains after => kept.not_forgets lost
  · intro refused
    exact forgets (by simpa [refused] using outcome)
  · intro kept later more home k bytes gone waiting layout
    obtain ⟨closed, done, read⟩ := layout.close_stopped gone
    rw [waiting, kept.waiting] at read
    exact ⟨closed, done, read⟩

/-- A stopped engine in which a record still waits, in a directory where this stands for its log. -/
def leftover (log : Entry) : Engine where
  config := { dataDir := "data", pageSize := 8, pageCount := 1, payloadSize := 8 }
  dir := ["data"]
  store :=
    { disk := ⟨[(["data"], .directory), (["data", "pages"], .directory), (["data", "wal.log"], log)], 1⟩
      dir := ["data", "pages"]
      pageSize := 8
      pageCount := 1
      dirty := []
      cache := .create 4 .evictOldest
      counters := {} }
  buffer := (Buffer.create 4).add (.numbered 1)
  sequence := .startingAt 2
  writer := { sink := .file 0, policy := .perBatch }
  checkpointLog := ⟨.device .null, []⟩
  phase := .idle
  events := ⟨.device .null, []⟩
  nextTransaction := 2
  generator := .create none 1 8
  stop := ⟨true⟩
  running := false
  recovery := {}
  clock := .still 5

theorem layout_leftover : (leftover (.file 0 [])).Layout ["data"] 0 [] := by
  have leads : (leftover (.file 0 [])).store.disk.LeadsTo ["data"] ["data"] :=
    Volume.leadsTo_of_follow (by rfl) (by rfl)
  refine ⟨leads, ⟨leads.child isName_pages short_pages (by rfl), by decide, ?_⟩, by rfl, rfl, nofun⟩
  intro name e there
  simp [leftover, Volume.entry?, Path.child, pagesName, List.lookup_cons] at there

/-- The record that a full disk refuses is written by the close after it. -/
theorem close_retains_full :
    ∃ (fault : Fault) (after closed : Engine),
      (leftover (.file 0 [])).running = false ∧
      (leftover (.file 0 [])).close .full = (.error fault, after) ∧
      (leftover (.file 0 [])).Retains after ∧ after.close = (.ok (), closed) ∧
      closed.store.disk.read closed.logPath = .ok (Record.numbered 1).line := by
  let view (e : Engine) :=
    (e.running, e.store.disk, e.dir, e.store.dir, e.writer.sink, e.events.file)
  have refused : ((leftover (.file 0 [])).close .full).1.isOk = false := by decide +kernel
  have same : view ((leftover (.file 0 [])).close .full).2 = view (leftover (.file 0 [])) := by
    decide +kernel
  rcases failed : (leftover (.file 0 [])).close .full with ⟨fault | n, after⟩
  · obtain ⟨kept, -, writes⟩ := close_retains_iff .full rfl failed
    have retains := kept.mpr rfl
    rw [failed] at same
    simp only [view, Prod.mk.injEq] at same
    obtain ⟨stopped, disk, dir, pages, writer, events⟩ := same
    obtain ⟨closed, done, read⟩ := writes retains after [] ["data"] 0 [] stopped
      (List.append_nil _).symm (layout_leftover.congr disk dir pages writer events)
    have line : [] ++ ((leftover (.file 0 [])).buffer.records ++ []).flatMap Record.line =
        (Record.numbered 1).line := by decide +kernel
    exact ⟨fault, after, closed, rfl, rfl, retains, done, line ▸ read⟩
  · rw [failed] at refused
    cases refused

/-- A log that has become a directory: the close fails, and the record is nowhere any more. -/
theorem close_forgets :
    let e := leftover .directory
    e.running = false ∧ e.buffer.records = [.numbered 1] ∧ e.close.1.isOk = false ∧
      e.close.2.buffer.records = [] ∧ e.close.2.store.counters.get .errors = 0 := by
  decide +kernel

end Engine

end PageJournal
