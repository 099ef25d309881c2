import PageJournal.Proofs.Engine.Delivery
import PageJournal.Proofs.Engine.Session

/-! Where the records of a run are. The first ones added are in the log, the next in the drain's
hand, the others wait; no step changes their order. -/
namespace PageJournal

namespace Log

/-- Of the batch in a hand, these parts still have to be written behind the records that are. -/
def Hand.Owes (done : List Record) (parts : List (List Record)) : Hand → Prop
  | .empty => parts = []
  | .writing batch left =>
    left = parts.map (·.flatMap Record.line) ∧ ∃ before, before <:+ done ∧ batch = before ++ parts.flatten
  | .failed _ _ => False

/-- A batch is written in parts of whole lines. -/
theorem exists_parts (policy : SyncPolicy) (batch : List Record) :
    ∃ parts : List (List Record), parts.flatten = batch ∧
      pieces policy batch = parts.map (·.flatMap Record.line) := by
  cases policy with
  | perBatch => exact ⟨[batch], by simp, rfl⟩
  | perRecord =>
    refine ⟨batch.map fun r => [r], ?_, ?_⟩
    · rw [← List.flatMap_def, List.flatMap_singleton']
    · simp [pieces]

/-- What a step of a drain through a file does: it writes some more whole lines, or none. -/
structure Advances (k : Nat) (done : List Record) (parts : List (List Record)) (l after : Loop Volume)
    (more : List Record) (left : List (List Record)) : Prop where
  owes : after.hand.Owes (done ++ more) left
  whole : more ++ left.flatten ++ after.flusher.buffer.records =
    parts.flatten ++ l.flusher.buffer.records
  ahead : parts.flatten <+: more ++ left.flatten
  disk : more.flatMap Record.line = [] ∧ after.flusher.writer.sink = l.flusher.writer.sink ∨
    l.flusher.writer.sink.append (.file k) (more.flatMap Record.line) = .ok after.flusher.writer.sink
  events : after.flusher.events = l.flusher.events
  settled : after.drains = l.drains ∨
    left = [] ∧ after.hand = .empty ∧
      ∃ d : Drain Volume, d.succeeded = true ∧ after.drains = l.drains ++ [d]

theorem Advances.order {k : Nat} {done more : List Record} {parts left : List (List Record)}
    {l after : Loop Volume} (advances : Advances k done parts l after more left) :
    done ++ parts.flatten ++ l.flusher.buffer.records =
      done ++ more ++ left.flatten ++ after.flusher.buffer.records := by
  rw [List.append_assoc, ← advances.whole]
  simp

theorem advances_step {k : Nat} {done : List Record} {parts : List (List Record)} {l : Loop Volume}
    (owes : l.hand.Owes done parts) {step : Step} (silent : step.record? = none) :
    ∃ more left, Advances k done parts l (l.step (.ofHandle (.file k)) step) more left := by
  have move := Loop.moves (.ofHandle (.file k)) l step
  generalize l.step (.ofHandle (.file k)) step = after at move ⊢
  cases move with
  | add r => cases silent
  | take silent free waiting =>
    rw [free] at owes
    cases owes
    obtain ⟨parts, whole, pieces⟩ :=
      exists_parts l.flusher.writer.policy l.flusher.buffer.records
    exact ⟨[], parts, ⟨pieces, [], List.nil_suffix, whole.symm⟩, by simp [whole], List.nil_prefix,
      .inl ⟨rfl, rfl⟩, rfl, .inl rfl⟩
  | @written _ batch piece rest writer silent holds wrote =>
    rw [holds] at owes
    obtain ⟨split, before, written, rfl⟩ := owes
    obtain ⟨part, left, rfl, rfl, rfl⟩ := List.map_eq_cons_iff.mp split.symm
    obtain ⟨again, wrote', disk⟩ := writePiece_file k (part.flatMap Record.line) l.flusher.writer
    rw [wrote'] at wrote
    cases wrote
    refine ⟨part, left, ⟨rfl, before ++ part, ?_, ?_⟩, ?_, List.prefix_rfl, .inr disk, rfl, .inl rfl⟩
    · obtain ⟨front, rfl⟩ := written
      exact ⟨front, (List.append_assoc _ _ _).symm⟩
    · rw [List.flatten_cons, List.append_assoc]
    · rw [List.flatten_cons]
  | refused silent holds wrote =>
    obtain ⟨writer, wrote', -⟩ := writePiece_file k _ l.flusher.writer
    rw [wrote'] at wrote
    cases wrote
  | acknowledge silent holds =>
    rw [holds] at owes
    obtain ⟨split, -⟩ := owes
    cases List.map_eq_nil_iff.mp split.symm
    exact ⟨[], [], rfl, rfl, List.prefix_rfl, .inl ⟨rfl, rfl⟩, rfl, .inr ⟨rfl, rfl, _, rfl, rfl⟩⟩
  | giveBack silent holds =>
    rw [holds] at owes
    exact owes.elim
  | nothing silent =>
    refine ⟨[], parts, ?_, rfl, List.prefix_rfl, .inl ⟨rfl, rfl⟩, rfl, .inl rfl⟩
    rw [List.append_nil]
    exact owes

end Log

open Log Engine

theorem Engine.Layout.farewell {home : Path} {k : Nat} {bytes : Bytes} {e : Engine}
    (layout : e.Layout home k bytes) (stopping : Bool) :
    (Session.farewell e stopping).Layout home k bytes := by
  cases stopping with
  | false => exact layout.flushEvents
  | true => exact (layout.flushEvents.note _ _).flushEvents

/-- How many of the records a close at this point is sure of. -/
def Closing.sure (added done held : Nat) : Closing → Nat
  | .joining => added
  | .writing _ => done + held
  | .drained => done

namespace Session

/-- Behind what was there, the log holds the first records that were added; the next still have to be
written by the drain in progress, and the others wait. -/
structure Standing (home : Path) (k : Nat) (old : Bytes) (done : List Record) (parts : List (List Record))
    (s : Session) : Prop where
  layout : s.engine.Layout home k (old ++ done.flatMap Record.line)
  owes : s.hand.Owes done parts
  whole : s.added = done ++ parts.flatten ++ s.engine.buffer.records
  closed : ∀ mark ∈ s.closed, mark ≤ done.length
  idle : s.engine.running = false →
    (∀ c w, s.close = some c → c.progress ≠ .writing w) → s.hand = .empty
  sure : ∀ c, s.close = some c →
    c.since ≤ c.progress.sure s.added.length done.length parts.flatten.length
  late : ∀ c w, s.close = some c → c.progress = .writing w →
    w.sink = .file k ∧ s.engine.running = false

variable {home : Path} {k : Nat} {old : Bytes} {done : List Record} {parts : List (List Record)} {s : Session}

/-- A step that at most adds records changes nothing else. -/
theorem Standing.grow (standing : s.Standing home k old done parts) {t : Session}
    (layout : t.engine.Layout home k (old ++ done.flatMap Record.line)) (hand : t.hand = s.hand)
    (close : t.close = s.close) (closed : t.closed = s.closed)
    (running : t.engine.running = s.engine.running) {more : List Record}
    (added : t.added = s.added ++ more)
    (waiting : t.engine.buffer.records = s.engine.buffer.records ++ more) :
    t.Standing home k old done parts where
  layout := layout
  owes := hand ▸ standing.owes
  whole := by rw [added, waiting, standing.whole, List.append_assoc]
  closed := closed ▸ standing.closed
  idle := by
    rw [running, close, hand]
    exact standing.idle
  sure := by
    intro c closing
    rw [close] at closing
    refine Nat.le_trans (standing.sure c closing) ?_
    rw [added, List.length_append]
    cases c.progress with
    | joining => exact Nat.le_add_right _ _
    | writing w => exact Nat.le_refl _
    | drained => exact Nat.le_refl _
  late := by
    rw [running, close]
    exact standing.late

theorem Standing.work (standing : s.Standing home k old done parts) {e : Engine}
    (layout : e.Layout home k (old ++ done.flatMap Record.line)) (running : e.running = s.engine.running)
    (waiting : e.buffer.records = s.engine.buffer.records) (stages : List Stage) :
    Standing home k old done parts { s with engine := e, stages } :=
  standing.grow layout rfl rfl rfl running (List.append_nil _).symm
    (waiting.trans (List.append_nil _).symm)

/-- Whole lines that are written stand behind the others. -/
theorem written_layout {e after : Engine} (layout : e.Layout home k (old ++ done.flatMap Record.line))
    {more : List Record}
    (disk : more.flatMap Record.line = [] ∧ after.store.disk = e.store.disk ∨
      e.store.disk.append (.file k) (more.flatMap Record.line) = .ok after.store.disk)
    (dir : after.dir = e.dir) (pages : after.store.dir = e.store.dir)
    (writer : after.writer.sink = e.writer.sink) (events : after.events.file = e.events.file) :
    after.Layout home k (old ++ (done ++ more).flatMap Record.line) := by
  rw [List.flatMap_append, ← List.append_assoc]
  rcases disk with ⟨none, same⟩ | appended
  · rw [none, List.append_nil]
    exact layout.congr same dir pages writer events
  · exact layout.append appended dir pages writer events

theorem Standing.background (standing : s.Standing home k old done parts)
    (running : s.engine.running = true) {step : Log.Step} (silent : step.record? = none) :
    ∃ done' parts', (s.background step).Standing home k old done' parts' := by
  have io : s.engine.sink = .ofHandle (.file k) := congrArg Sink.ofHandle standing.layout.writer
  obtain ⟨more, left, advances⟩ :=
    advances_step (k := k) (l := s.loop s.engine.writer) standing.owes silent
  rw [← io] at advances
  refine ⟨done ++ more, left, ?_, advances.owes, ?_, ?_, ?_, ?_, ?_⟩
  · exact written_layout standing.layout advances.disk rfl rfl rfl (congrArg _ advances.events)
  · exact standing.whole.trans advances.order
  · intro mark mem
    rw [List.length_append]
    exact Nat.le_add_right_of_le (standing.closed mark mem)
  · intro stopped
    exact absurd (running.symm.trans stopped) nofun
  · intro c closing
    have sure := standing.sure c closing
    cases progress : c.progress with
    | joining => rw [progress] at sure; exact sure
    | writing w =>
      have stopped := (standing.late c w closing progress).2
      exact absurd (running.symm.trans stopped) nofun
    | drained =>
      rw [progress] at sure
      simp only [Closing.sure, List.length_append] at sure ⊢
      omega
  · intro c w closing progress
    exact standing.late c w closing progress

theorem Standing.late_step (standing : s.Standing home k old done parts) {c : Close}
    {w : Writer Handle} (closing : s.close = some c) (writing : c.progress = .writing w)
    {step : Log.Step} (which : step = .write ∨ step = .settle) :
    ∃ done' parts', (s.late c w step).Standing home k old done' parts' := by
  obtain ⟨file, stopped⟩ := standing.late c w closing writing
  have silent : step.record? = none := by rcases which with rfl | rfl <;> rfl
  have io : Sink.ofHandle w.sink = .ofHandle (.file k) := congrArg Sink.ofHandle file
  obtain ⟨more, left, advances⟩ := advances_step (k := k) (l := s.loop w) standing.owes silent
  rw [← io] at advances
  have longer := advances.ahead.length_le
  have sure := standing.sure c closing
  rw [writing] at sure
  simp only [Closing.sure] at sure
  have layout : (s.late c w step).engine.Layout home k (old ++ (done ++ more).flatMap Record.line) :=
    written_layout standing.layout advances.disk rfl rfl rfl (congrArg _ advances.events)
  have whole : (s.late c w step).added = _ := standing.whole.trans advances.order
  have closed : ∀ mark ∈ (s.late c w step).closed, mark ≤ (done ++ more).length := by
    intro mark mem
    rw [List.length_append]
    exact Nat.le_add_right_of_le (standing.closed mark mem)
  rcases advances.settled with same | ⟨rfl, free, d, succeeded, last⟩
  · obtain ⟨again, sink, close⟩ : ∃ w' : Writer Handle, w'.sink = w.sink ∧
        (s.late c w step).close = some { c with progress := .writing w' } := by
      refine ⟨((s.loop w).step (.ofHandle w.sink) step).flusher.writer.onto w.sink, rfl, ?_⟩
      unfold Session.late
      simp only [same]
      rfl
    refine ⟨done ++ more, left, layout, advances.owes, whole, closed, ?_, ?_, ?_⟩
    · intro _ elsewhere
      exact absurd rfl (elsewhere _ _ close)
    · intro c' closing'
      rw [close] at closing'
      cases closing'
      simp only [Closing.sure, List.length_append] at longer ⊢
      omega
    · intro c' w' closing' progress
      rw [close] at closing'
      cases closing'
      cases progress
      exact ⟨sink.trans file, stopped⟩
  · have close : (s.late c w step).close = some { c with progress := .drained } := by
      unfold Session.late
      simp only [last]
      exact if_pos succeeded
    refine ⟨done ++ more, [], layout, advances.owes, whole, closed, fun _ _ => free, ?_, ?_⟩
    · intro c' closing'
      rw [close] at closing'
      cases closing'
      simp only [Closing.sure, List.length_append, List.flatten_nil, List.append_nil] at longer ⊢
      omega
    · intro c' w' closing' progress
      rw [close] at closing'
      cases closing'
      cases progress

theorem Standing.openLate (standing : s.Standing home k old done parts) {c : Close}
    (closing : s.close = some c) (joining : c.progress = .joining)
    (gone : s.engine.running = false) {file : Handle} {disk : Volume}
    (opened : s.engine.store.disk.openAppend s.engine.logPath = .ok (file, disk)) {t : Session}
    (step : t = { s with
      engine := { s.engine with
        buffer := s.engine.buffer.swap.2
        store := { s.engine.store with disk } }
      hand := .writing s.engine.buffer.records
        (pieces s.engine.config.syncPolicy s.engine.buffer.records)
      close := some { c with
        progress := .writing { sink := file, policy := s.engine.config.syncPolicy } } }) :
    ∃ parts', t.Standing home k old done parts' := by
  subst step
  rw [standing.layout.openAppend] at opened
  cases opened
  -- nothing was in the hand, so everything that is not written is in it now
  have free := standing.idle gone fun c' w' same writing => by
    rw [closing] at same
    cases same
    rw [joining] at writing
    cases writing
  have owes := standing.owes
  rw [free] at owes
  cases owes
  obtain ⟨parts, whole, split⟩ := exists_parts s.engine.config.syncPolicy s.engine.buffer.records
  have added : s.added = done ++ parts.flatten := by
    rw [standing.whole, whole]
    simp
  have sure := standing.sure c closing
  rw [joining] at sure
  refine ⟨parts, ?_, ⟨split, [], List.nil_suffix, whole.symm⟩, ?_, standing.closed, ?_, ?_, ?_⟩
  · exact standing.layout.congr rfl rfl rfl rfl rfl
  · rw [added]
    simp
  · intro _ elsewhere
    exact absurd rfl (elsewhere _ _ rfl)
  · intro c' same
    cases same
    simpa [Closing.sure, added] using sure
  · intro c' w' same writing
    cases same
    cases writing
    exact ⟨rfl, gone⟩

theorem Standing.leave (standing : s.Standing home k old done parts) {c : Close}
    (closing : s.close = some c) (drained : c.progress = .drained) :
    Standing home k old done parts { s with
      engine := farewell s.engine c.stopping
      close := none
      closed := s.closed ++ [c.since] } := by
  have rest : (farewell s.engine c.stopping).running = s.engine.running ∧
      (farewell s.engine c.stopping).buffer = s.engine.buffer := by
    unfold farewell
    split <;> exact ⟨rfl, rfl⟩
  have sure := standing.sure c closing
  rw [drained] at sure
  refine ⟨standing.layout.farewell c.stopping, standing.owes, ?_, ?_, ?_, nofun, nofun⟩
  · rw [rest.2]
    exact standing.whole
  · intro mark mem
    rcases List.mem_append.mp mem with old | new
    · exact standing.closed mark old
    · rw [List.mem_singleton.mp new]
      exact sure
  · intro stopped _
    rw [rest.1] at stopped
    refine standing.idle stopped fun c' w same writing => ?_
    rw [closing] at same
    cases same
    rw [drained] at writing
    cases writing

theorem Standing.begin_close (standing : s.Standing home k old done parts) (alone : s.close = none) :
    Standing home k old done parts { s with
      engine := s.engine.requestStop
      close := some ⟨s.added.length, s.engine.running, .joining⟩ } := by
  refine ⟨standing.layout.requestStop, standing.owes, ?_, standing.closed, ?_, ?_, ?_⟩
  · simpa using standing.whole
  · intro stopped _
    rw [requestStop_running] at stopped
    refine standing.idle stopped fun c w same => ?_
    rw [alone] at same
    cases same
  · intro c same
    cases same
    exact Nat.le_refl _
  · intro c w same writing
    cases same
    cases writing

theorem Standing.nothing (standing : s.Standing home k old done parts) {c : Close}
    (closing : s.close = some c) (joining : c.progress = .joining)
    (gone : s.engine.running = false) (none : s.engine.buffer.records = []) :
    Standing home k old done parts { s with close := some { c with progress := .drained } } := by
  have free := standing.idle gone fun c' w same writing => by
    rw [closing] at same
    cases same
    rw [joining] at writing
    cases writing
  have owes := standing.owes
  rw [free] at owes
  cases owes
  have sure := standing.sure c closing
  rw [joining] at sure
  refine ⟨standing.layout, standing.owes, standing.whole, standing.closed, fun _ _ => free, ?_, ?_⟩
  · intro c' same
    cases same
    have whole := congrArg List.length standing.whole
    simp only [none, List.flatten_nil, List.append_nil] at whole
    exact whole ▸ sure
  · intro c' w same writing
    cases same
    cases writing

theorem Standing.exit (standing : s.Standing home k old done parts) (free : s.hand = .empty) :
    Standing home k old done parts
      { s with engine := { s.engine with running := false } } where
  layout := standing.layout.congr rfl rfl rfl rfl rfl
  owes := standing.owes
  whole := standing.whole
  closed := standing.closed
  idle _ _ := free
  sure := standing.sure
  late c w closing writing := ⟨(standing.late c w closing writing).1, rfl⟩

theorem standing_step (standing : s.Standing home k old done parts) {t : Session} (step : Step s t) :
    ∃ done' parts', t.Standing home k old done' parts' := by
  have layout := standing.layout
  cases step with
  | tick =>
    refine ⟨done, parts, standing.work (layout.congr ?_ ?_ ?_ ?_ ?_) ?_ ?_ _⟩ <;> rfl
  | claim =>
    refine ⟨done, parts, standing.work (layout.congr ?_ ?_ ?_ ?_ ?_) ?_ ?_ _⟩ <;> rfl
  | begin claimed thread operation page payload =>
    refine ⟨done, parts, standing.work (layout.congr ?_ ?_ ?_ ?_ ?_) ?_ ?_ _⟩ <;> rfl
  | intend begun =>
    exact ⟨done, parts, standing.grow (layout.congr rfl rfl rfl rfl rfl) rfl rfl rfl rfl rfl
      (Buffer.records_add _ _)⟩
  | apply intended trouble applied =>
    exact ⟨done, parts, standing.work (layout.apply _ trouble) rfl rfl _⟩
  | abandon intended trouble failed =>
    exact ⟨done, parts, standing.work (((layout.apply _ trouble).count _).note _ _) rfl rfl _⟩
  | number applied =>
    refine ⟨done, parts, standing.work (layout.congr ?_ ?_ ?_ ?_ ?_) ?_ ?_ _⟩ <;> rfl
  | commit numbered =>
    exact ⟨done, parts, standing.grow (layout.congr rfl rfl rfl rfl rfl) rfl rfl rfl rfl rfl
      (Buffer.records_add _ _)⟩
  | wake =>
    refine ⟨done, parts, standing.work (layout.congr ?_ ?_ ?_ ?_ ?_) ?_ ?_ _⟩ <;> rfl
  | drain running silent => exact standing.background running silent
  | count => exact ⟨done, parts, standing.work (layout.count _) rfl rfl _⟩
  | tell now component message =>
    refine ⟨done, parts, standing.work (layout.congr ?_ ?_ ?_ ?_ ?_) ?_ ?_ _⟩ <;> rfl
  | exit asked free => exact ⟨done, parts, standing.exit free⟩
  | close alone => exact ⟨done, parts, standing.begin_close alone⟩
  | nothing closing joining gone none =>
    exact ⟨done, parts, standing.nothing closing joining gone none⟩
  | «open» closing joining gone opened =>
    obtain ⟨parts', standing'⟩ := standing.openLate closing joining gone opened rfl
    exact ⟨done, parts', standing'⟩
  | refuse closing joining gone refused =>
    rw [layout.openAppend] at refused
    cases refused
  | late closing writing which => exact standing.late_step closing writing which
  | leave closing drained => exact ⟨done, parts, standing.leave closing drained⟩

/-- Wherever a run has come, every record that was added is in the log, in the hand or waiting. -/
theorem standing_runs (standing : s.Standing home k old done parts) {t : Session} (run : Runs s t) :
    ∃ done' parts', t.Standing home k old done' parts' := by
  induction run with
  | here => exact ⟨done, parts, standing⟩
  | more run step ih =>
    obtain ⟨done', parts', standing⟩ := ih
    exact standing_step standing step

theorem standing_start {e : Engine} (layout : e.Layout home k old) (none : e.buffer.records = []) :
    (start e).Standing home k old [] [] :=
  ⟨by simpa [start] using layout, rfl, none.symm, nofun, fun _ _ => rfl, nofun, nofun⟩

end Session

end PageJournal
