import PageJournal.Proofs.Engine.Session

/-! The engine's own operations are runs: each is a row of steps that nobody interrupts. -/
namespace PageJournal

open Log

namespace Log.Loop

variable {σ : Type}

/-- What a step does depends on the flusher and the hand only. -/
theorem step_same (io : Sink σ) {l l' : Loop σ} (flusher : l.flusher = l'.flusher) (hand : l.hand = l'.hand)
    (step : Step) : (l.step io step).flusher = (l'.step io step).flusher ∧
      (l.step io step).hand = (l'.step io step).hand := by
  obtain ⟨f, h, since, drains⟩ := l
  obtain ⟨f', h', since', drains'⟩ := l'
  cases flusher
  cases hand
  cases step with
  | add r => exact ⟨rfl, rfl⟩
  | swap =>
    simp only [Loop.step, Loop.swap]
    split
    · split <;> exact ⟨rfl, rfl⟩
    · exact ⟨rfl, rfl⟩
  | write => exact ⟨rfl, rfl⟩
  | settle =>
    rcases h with _ | ⟨batch, _ | ⟨piece, left⟩⟩ | ⟨batch, cause⟩
    all_goals exact ⟨rfl, rfl⟩

theorem run_same (io : Sink σ) {l l' : Loop σ} (flusher : l.flusher = l'.flusher) (hand : l.hand = l'.hand)
    (steps : List Step) : (l.run io steps).flusher = (l'.run io steps).flusher ∧
      (l.run io steps).hand = (l'.run io steps).hand := by
  induction steps generalizing l l' with
  | nil => exact ⟨flusher, hand⟩
  | cons step rest ih =>
    obtain ⟨flusher, hand⟩ := step_same io flusher hand step
    exact ih flusher hand

end Log.Loop

namespace Session

variable {s t : Session}

theorem Runs.trans {u : Session} (first : Runs s t) (later : Runs t u) : Runs s u := by
  induction later with
  | here => exact first
  | more run step ih => exact .more ih step

theorem Runs.one (step : Step s t) : Runs s t := .more .here step

theorem runs_begin (s : Session) (thread : UInt32) (operation : Operation) (page : PageId)
    (payload : Bytes) :
    Runs s { s with
      engine := (s.engine.begin thread operation page payload).2
      stages := s.stages ++ [.begun (s.engine.begin thread operation page payload).1] } := by
  let claimed : Session := { s with
    engine := s.engine.allocateTransaction.2
    stages := s.stages ++ [.claimed s.engine.allocateTransaction.1] }
  have there : claimed.stages[s.stages.length]? = some (.claimed s.engine.allocateTransaction.1) := by
    simp [claimed]
  have begun := Step.begin there thread operation page payload
  have last : claimed.stages.set s.stages.length
      (.begun (s.engine.begin thread operation page payload).1) =
        s.stages ++ [.begun (s.engine.begin thread operation page payload).1] := by
    simp [claimed]
  refine (Runs.one Step.claim).more ?_
  rw [← last]
  exact begun

theorem runs_execute {i : Nat} {t : Transaction} (begun : s.stages[i]? = some (.begun t))
    (trouble : Trouble) :
    ∃ more, (s.engine.execute t trouble).2.buffer.records = s.engine.buffer.records ++ more ∧
      Runs s { s with
        engine := (s.engine.execute t trouble).2
        stages := s.stages.set i .ended
        added := s.added ++ more } := by
  have inside : i < s.stages.length := (List.getElem?_eq_some_iff.mp begun).1
  let intended := s.log i (.intended t) t t.lsn (s.engine.log t t.lsn)
  have there : intended.stages[i]? = some (.intended t) := List.getElem?_set_self inside
  have first : Runs s intended := .one (.intend begun)
  rcases outcome : ((s.engine.log t t.lsn).apply t trouble).1 with fault | ⟨⟩
  · have executed : (s.engine.execute t trouble).2 =
        ((s.engine.log t t.lsn).apply t trouble).2.abandon t fault := by
      unfold Engine.execute
      split
      · next failed =>
        rw [failed] at outcome ⊢
        cases outcome
        rfl
      · next done =>
        rw [done] at outcome
        cases outcome
    have run := first.more (.abandon there trouble outcome)
    refine ⟨[t.record t.lsn s.engine.now.1], ?_, ?_⟩
    · rw [executed]
      exact Buffer.records_add _ _
    · rw [executed, ← List.set_set (Stage.intended t)]
      exact run
  · let e := ((s.engine.log t t.lsn).apply t trouble).2
    have executed : (s.engine.execute t trouble).2 = (e.commit t).2 := by
      unfold Engine.execute
      split
      · next failed =>
        rw [failed] at outcome
        cases outcome
      · next done =>
        simp only [e, done]
    let applied := intended.move i (.applied t) e
    have second : Step intended applied := .apply there trouble outcome
    have ready : applied.stages[i]? = some (.applied t) :=
      List.getElem?_set_self (List.length_set.symm ▸ inside)
    let numbered := applied.move i (.numbered t.commit e.allocateLsn.1) e.allocateLsn.2
    have third : Step applied numbered := .number ready
    have last : numbered.stages[i]? = some (.numbered t.commit e.allocateLsn.1) :=
      List.getElem?_set_self (by simpa [applied, intended, Session.log, Session.move] using inside)
    have run := ((first.more second).more third).more (.commit last)
    refine ⟨[t.record t.lsn s.engine.now.1, t.commit.record e.allocateLsn.1 e.now.1], ?_, ?_⟩
    · rw [executed]
      have before : e.buffer.records = s.engine.buffer.records ++ [t.record t.lsn s.engine.now.1] :=
        Buffer.records_add _ _
      refine (Buffer.records_add _ _).trans ?_
      exact (congrArg (· ++ _) before).trans (List.append_assoc _ _ _)
    · have stages : (numbered.stages.set i .ended) = s.stages.set i .ended := by
        simp [numbered, applied, intended, Session.log, Session.move]
      have added : applied.added ++ [t.commit.record e.allocateLsn.1 e.now.1] = s.added ++
          [t.record t.lsn s.engine.now.1, t.commit.record e.allocateLsn.1 e.now.1] :=
        List.append_assoc _ _ _
      rw [executed, ← stages, ← added]
      exact run

theorem runs_background (running : s.engine.running = true) {steps : List Log.Step}
    (silent : ∀ step ∈ steps, step.record? = none) :
    Runs s { s with
      engine := s.engine.withFlusher
        ((s.loop s.engine.writer).run s.engine.sink steps).flusher
      hand := ((s.loop s.engine.writer).run s.engine.sink steps).hand } := by
  induction steps generalizing s with
  | nil => exact .here
  | cons step rest ih =>
    have first := Step.drain running (silent step List.mem_cons_self)
    have later := ih (s := s.background step) running
      fun step mem => silent step (List.mem_cons_of_mem _ mem)
    let again := (s.background step).loop (s.background step).engine.writer
    let once := (s.loop s.engine.writer).step s.engine.sink step
    have both : again.flusher = once.flusher ∧ again.hand = once.hand := ⟨rfl, rfl⟩
    obtain ⟨flusher, hand⟩ := Loop.run_same s.engine.sink both.1 both.2 rest
    have same : (s.background step).engine.sink = s.engine.sink := rfl
    rw [same, flusher, hand] at later
    exact (Runs.one first).trans later

theorem silent_drainSteps {σ : Type} (f : Flusher σ) :
    ∀ step ∈ Loop.drainSteps f, step.record? = none := by
  intro step mem
  rcases List.mem_append.mp mem with mem | mem
  · rcases List.mem_cons.mp mem with rfl | mem
    · rfl
    · rw [List.eq_of_mem_replicate mem]
      rfl
  · rw [List.mem_singleton.mp mem]
    rfl

theorem drain_nothing {σ : Type} (io : Sink σ) {f : Flusher σ} (none : f.buffer.records = []) :
    f.drain io = (.ok 0, f) := by
  obtain ⟨writer, ⟨size, records, requested⟩, sequence, counters, events⟩ := f
  cases none
  rfl

theorem runs_drain (running : s.engine.running = true) (free : s.hand = .empty) :
    Runs s { s with
      engine := s.engine.withFlusher (s.engine.flusher.drain s.engine.sink).2 } := by
  by_cases none : s.engine.buffer.records = []
  · rw [drain_nothing s.engine.sink (f := s.engine.flusher) none]
    exact .here
  · have run := runs_background running (silent_drainSteps (s.loop s.engine.writer).flusher)
    rw [Loop.run_drainSteps s.engine.sink (s.loop s.engine.writer) free none] at run
    dsimp only at run
    rw [← free] at run
    exact run

theorem runs_round (running : s.engine.running = true) (free : s.hand = .empty) :
    Runs s { s with engine := s.engine.writerRound } := by
  let awake : Session := { s with engine := { s.engine.now.2 with
    buffer := s.engine.buffer.takeRequest.2 } }
  have woken : Runs s awake := (Runs.one .tick).more .wake
  have drained := woken.trans (runs_drain (s := awake) running free)
  have unfolded : s.engine.writerRound =
      s.engine.now.2.withFlusher (s.engine.now.2.flusher.round awake.engine.sink s.engine.now.1) :=
    rfl
  have taken : { s.engine.now.2.flusher with
      buffer := s.engine.now.2.flusher.buffer.takeRequest.2 } = awake.engine.flusher := rfl
  rw [unfolded]
  unfold Flusher.round
  simp only [taken]
  split
  · next f done =>
    rw [done] at drained
    exact drained
  · next fault f failed =>
    rw [failed] at drained
    exact (drained.more .count).more (.tell _ _ _)

/-- The background writer drains for the last time and is gone. -/
theorem runs_finish (running : s.engine.running = true) (free : s.hand = .empty)
    (asked : s.engine.stop.requested = true) (now : UInt64) :
    Runs s { s with engine :=
      { s.engine.withFlusher (s.engine.flusher.finish s.engine.sink now) with running := false } } := by
  have drained := runs_drain running free
  unfold Flusher.finish
  rcases outcome : s.engine.flusher.drain s.engine.sink with ⟨fault | n, f⟩
  · rw [outcome] at drained
    exact ((drained.more .count).more (.tell now "wal" _)).more (.exit asked free)
  · rw [outcome] at drained
    exact (drained.more (.tell now "wal" _)).more (.exit asked free)

/-- Whoever closes waits until the background writer is gone. -/
theorem runs_join (free : s.hand = .empty) (asked : s.engine.stop.requested = true) :
    Runs s { s with engine := s.engine.joinServices } := by
  unfold Engine.joinServices
  split
  · next running =>
    let rounded : Session := { s with engine := s.engine.writerRound }
    let ticked : Session := { s with engine := s.engine.writerRound.now.2 }
    have round : Runs s rounded := runs_round running free
    have tick : Runs s ticked := round.more .tick
    exact tick.trans (runs_finish (s := ticked) running free asked _)
  · exact .here

/-- A close writes some pieces of what was left. -/
theorem runs_writes {c : Close} {w : Writer Handle} (closing : s.close = some c)
    (writing : c.progress = .writing w) {n : Nat} {l : Loop Volume}
    (wrote : (s.loop w).run (.ofHandle w.sink) (List.replicate n .write) = l) :
    Runs s { s with
      engine := s.engine.withLate l.flusher
      hand := l.hand
      close := some { c with progress := .writing (l.flusher.writer.onto w.sink) } } := by
  subst wrote
  induction n generalizing s c w with
  | zero =>
    have same : some { c with progress := Closing.writing w } = s.close := by
      rw [closing, ← writing]
    have still : Runs s { s with close := some { c with progress := Closing.writing w } } := by
      rw [same]
      exact .here
    exact still
  | succ n ih =>
    have first := Step.late closing writing (.inl rfl)
    let again := ((s.loop w).step (.ofHandle w.sink) .write).flusher.writer.onto w.sink
    have later := ih (s := s.late c w .write) (c := { c with progress := .writing again }) rfl rfl
    let once := (s.loop w).step (.ofHandle w.sink) .write
    have both : ((s.late c w .write).loop again).flusher = once.flusher ∧
        ((s.late c w .write).loop again).hand = once.hand := ⟨rfl, rfl⟩
    obtain ⟨flusher, hand⟩ :=
      Loop.run_same (.ofHandle w.sink) both.1 both.2 (List.replicate n .write)
    have same : again.sink = w.sink := rfl
    rw [same, flusher, hand] at later
    exact (Runs.one first).trans later

theorem runs_deliver {c : Close} {w : Writer Handle} (closing : s.close = some c)
    (writing : c.progress = .writing w) {batch : List Record} (nonempty : batch ≠ [])
    (holds : s.hand = .writing batch (pieces w.policy batch))
    {outcome : Except IoFault Nat} {f : Flusher Volume}
    (delivered : (s.loop w).flusher.deliver (.ofHandle w.sink) batch = (outcome, f)) :
    Runs s { s with
      engine := s.engine.withLate f
      hand := .empty
      close := if outcome.isOk then some { c with progress := .drained } else none } := by
  have full : batch.isEmpty = false := by
    rw [List.isEmpty_eq_false_iff]
    exact nonempty
  have wrote := Loop.run_write (.ofHandle w.sink) (s.loop w).flusher batch (s.loop w).since []
    (pieces w.policy batch)
  have before : s.loop w = ⟨(s.loop w).flusher, .writing batch (pieces w.policy batch),
      (s.loop w).since, []⟩ := by
    rw [← holds]
    rfl
  rw [← before] at wrote
  have run := runs_writes closing writing wrote
  have policy := Loop.writePieces_policy (.ofHandle w.sink) (pieces w.policy batch)
    (s.loop w).flusher.writer
  unfold Flusher.deliver Writer.writeBatch at delivered
  simp only [full, Bool.false_eq_true, if_false] at delivered
  have pieces : pieces (s.loop w).flusher.writer.policy batch = pieces w.policy batch := rfl
  rw [pieces] at delivered
  rcases result : (s.loop w).flusher.writer.writePieces (.ofHandle w.sink) (Log.pieces w.policy batch)
    with ⟨cause | ⟨⟩, writer⟩
  · rw [result] at delivered run
    cases delivered
    exact run.more (.late (c := { c with progress := .writing (writer.onto w.sink) }) rfl rfl (.inr rfl))
  · rw [result] at delivered run policy
    have same : writer.policy = w.policy := policy
    have syncs : (Log.pieces writer.policy batch).length = (Log.pieces w.policy batch).length := by
      rw [same]
    have accepted : Flusher.accept { (s.loop w).flusher with writer } batch = f := by
      cases delivered
      exact congrArg (Flusher.acknowledge _ batch) syncs
    have settled : Runs s { s with
        engine := s.engine.withLate (Flusher.accept { (s.loop w).flusher with writer } batch)
        hand := .empty
        close := some { c with progress := .drained } } :=
      run.more
        (.late (c := { c with progress := .writing (writer.onto w.sink) }) rfl rfl (.inr rfl))
    rw [accepted] at settled
    cases delivered
    exact settled

/-- A close writes what still waits once the log writer is gone. -/
theorem runs_drainRemaining {c : Close} (closing : s.close = some c)
    (joining : c.progress = .joining) (gone : s.engine.running = false) (free : s.hand = .empty) :
    Runs s { s with
      engine := s.engine.drainRemaining.2
      close := if s.engine.drainRemaining.1.isOk then some { c with progress := .drained }
        else none } := by
  by_cases none : s.engine.buffer.records = []
  · rw [Engine.drainRemaining_nothing none]
    exact .one (.nothing closing joining gone none)
  · rw [Engine.drainRemaining_some none]
    rcases opened : s.engine.store.disk.openAppend s.engine.logPath with cause | ⟨file, disk⟩
    · rw [Engine.deliverLate_refused (a := .ordinary) (e := s.engine.emptied) opened]
      exact .one (.refuse closing joining gone opened)
    · let late : Writer Handle := { sink := file, policy := s.engine.config.syncPolicy }
      rcases delivered : (s.engine.emptied.lateWriter disk).deliver (.ofHandle file) s.engine.buffer.records
        with ⟨outcome, f⟩
      have run := (Runs.one (.open closing joining gone opened)).trans
        (runs_deliver (c := { c with progress := .writing late }) rfl rfl none rfl delivered)
      rw [← free] at run
      rcases outcome with cause | n
      · rw [Engine.deliverLate_failed (a := .ordinary) (e := s.engine.emptied) opened delivered]
        exact run.more .count
      · rw [Engine.deliverLate_written (a := .ordinary) (e := s.engine.emptied) opened delivered]
        exact run

theorem running_joinServices (e : Engine) : e.joinServices.running = false := by
  unfold Engine.joinServices
  split
  · rfl
  · next stopped => exact Bool.eq_false_iff.mpr stopped

theorem runs_close (alone : s.close = none) (free : s.hand = .empty) :
    Runs s { s with
      engine := s.engine.close.2
      close := none
      closed := s.closed ++ if s.engine.close.1.isOk then [s.added.length] else [] } := by
  let c : Close := ⟨s.added.length, s.engine.running, .joining⟩
  let asked : Session := { s with engine := s.engine.requestStop, close := some c }
  let joined : Session := { asked with engine := s.engine.requestStop.joinServices }
  have first : Runs s asked := .one (.close alone)
  have second : Runs asked joined := runs_join free rfl
  have third := (first.trans second).trans
    (runs_drainRemaining (c := c) rfl rfl (running_joinServices _) free)
  unfold Engine.close
  dsimp only
  rcases drained : s.engine.requestStop.joinServices.drainRemaining with ⟨fault | n, e⟩
  · have same : joined.engine.drainRemaining = _ := drained
    rw [same] at third
    have unclosed : s.closed = s.closed ++ [] := (List.append_nil _).symm
    dsimp only [joined, asked] at third
    rw [unclosed] at third
    exact third
  · have same : joined.engine.drainRemaining = _ := drained
    rw [same] at third
    exact third.more (.leave (c := { c with progress := .drained }) rfl rfl)

end Session

end PageJournal
