import PageJournal.Proofs.Engine.Standing

/-! An engine whose log may falter: a write may take its bytes in several parts, and each call may fail. A step
at which no call fails is one of those of a log that takes everything at once. -/
namespace PageJournal

open Log

/-- Calls on an open file. A write takes some beginning of its bytes or fails, and nothing else changes. -/
structure Log.Sink.Falters (io : Sink Volume) (h : Handle) : Prop where
  taken : ∀ bytes v n after, io.write bytes v = (.ok n, after) →
    n ≤ bytes.length ∧ v.append h (bytes.take n) = .ok after
  refused : ∀ bytes v cause after, io.write bytes v = (.error cause, after) → after = v
  flush : ∀ v, (io.flush v).2 = v
  sync : ∀ v, (io.sync v).2 = v

namespace Log

theorem falters_ofHandle (h : Handle) : (Sink.ofHandle h).Falters h where
  taken bytes v n after wrote := by
    dsimp only [Sink.ofHandle] at wrote
    split at wrote
    · next appended =>
      cases wrote
      exact ⟨Nat.le_refl _, (congrArg (v.append h) List.take_length).trans appended⟩
    · cases wrote
  refused bytes v cause after wrote := by
    dsimp only [Sink.ofHandle] at wrote
    split at wrote
    · cases wrote
    · cases wrote
      rfl
  flush _ := rfl
  sync _ := rfl

/-- A hand whose batch could not be written. -/
def Hand.isFailed : Hand → Bool
  | .failed _ _ => true
  | _ => false

variable {io : Sink Volume} {k : Nat}

/-- In however many parts, all bytes are appended. -/
theorem writeAll_faltering (calls : io.Falters (.file k)) {bytes : Bytes} {v after : Volume}
    (done : io.writeAll bytes v = (.ok (), after)) : v.append (.file k) bytes = .ok after := by
  fun_induction Sink.writeAll io bytes v with
  | case1 v =>
    cases done
    exact after.append_nil k
  | case2 b rest v cause mid wrote => cases done
  | case3 b rest v mid wrote => cases done
  | case4 b rest v n mid wrote ih =>
    have first := (calls.taken _ _ _ _ wrote).2
    rw [List.take_succ_cons] at first
    rw [← ih done, Volume.append_append first, List.cons_append, List.take_append_drop]

theorem force_faltering {h : Handle} (calls : io.Falters h) {w writer : Writer Volume}
    (done : w.force io = (.ok (), writer)) : writer = { w with syncs := w.syncs + 1 } := by
  have flushed := calls.flush w.sink
  unfold Writer.force at done
  split at done
  · cases done
  · next v flush =>
    rw [flush] at flushed
    have synced := calls.sync v
    split at done
    · cases done
    · next after sync =>
      rw [sync] at synced
      cases done
      rw [← flushed, ← synced]

theorem writePiece_faltering (calls : io.Falters (.file k)) {piece : Bytes} {w writer : Writer Volume}
    (done : w.writePiece io piece = (.ok (), writer)) :
    w.writePiece (.ofHandle (.file k)) piece = (.ok (), writer) := by
  unfold Writer.writePiece at done
  split at done
  · cases done
  · next after wrote =>
    rw [force_faltering calls done]
    exact writePiece_ofHandle (writeAll_faltering calls wrote)

/-- A step of a drain at which no call fails. -/
theorem step_faltering (calls : io.Falters (.file k)) (l : Loop Volume) {step : Step}
    (whole : (l.step io step).hand.isFailed = false) :
    l.step io step = l.step (.ofHandle (.file k)) step := by
  obtain ⟨f, hand, since, drains⟩ := l
  cases step with
  | add | swap | settle => rfl
  | write =>
    rcases hand with _ | ⟨batch, _ | ⟨piece, left⟩⟩ | ⟨batch, cause⟩
    · rfl
    · rfl
    · simp only [Loop.step, Flusher.writeNext] at whole ⊢
      rcases wrote : f.writer.writePiece io piece with ⟨cause | ⟨⟩, writer⟩
      · rw [wrote] at whole
        cases whole
      · rw [writePiece_faltering calls wrote]
    · rfl

end Log

namespace Session

/-- What can happen next: any of the steps of a log that takes everything, a step of a drain whose calls
falter, and, if they may fail, a log that cannot be opened when a close comes to it. -/
inductive Proceeds (mayFail : Bool) (s : Session) : Session → Prop where
  | usual {t : Session} (step : Step s t) : Proceeds mayFail s t
  | drain (running : s.engine.running = true) {io : Sink Volume} (calls : io.Falters s.engine.writer.sink)
      {step : Log.Step} (silent : step.record? = none)
      (whole : mayFail = true ∨ (s.background step io).hand.isFailed = false) :
    Proceeds mayFail s (s.background step io)
  | late {c : Close} {w : Writer Handle} (closing : s.close = some c) (writing : c.progress = .writing w)
      {io : Sink Volume} (calls : io.Falters w.sink) {step : Log.Step}
      (which : step = .write ∨ step = .settle)
      (whole : mayFail = true ∨ (s.late c w step io).hand.isFailed = false) :
    Proceeds mayFail s (s.late c w step io)
  | refuse {c : Close} (closing : s.close = some c) (joining : c.progress = .joining)
      (gone : s.engine.running = false) (may : mayFail = true) :
    Proceeds mayFail s { s with engine := s.engine.emptied, close := none }

variable {s t : Session}

theorem Proceeds.may {mayFail : Bool} (proceeds : Proceeds mayFail s t) : Proceeds true s t := by
  cases proceeds with
  | usual step => exact .usual step
  | drain running calls silent whole => exact .drain running calls silent (.inl rfl)
  | late closing writing calls which whole => exact .late closing writing calls which (.inl rfl)
  | refuse closing joining gone may => exact .refuse closing joining gone rfl

/-- While no call fails, a log that takes its bytes in parts is one that takes everything. -/
theorem Standing.usual {home : Path} {k : Nat} {old : Bytes} {done : List Record} {parts : List (List Record)}
    (standing : s.Standing home k old done parts) (proceeds : Proceeds false s t) : Step s t := by
  cases proceeds with
  | usual step => exact step
  | @drain running io calls step silent whole =>
    have file : s.engine.writer.sink = .file k := standing.layout.writer
    have same : s.background step io = s.background step := by
      have whole := whole.resolve_left nofun
      rw [file] at calls
      have loop := step_faltering calls (s.loop s.engine.writer) whole
      unfold Session.background
      rw [loop, Engine.sink, file]
    rw [same]
    exact .drain running silent
  | @late c w closing writing io calls step which whole =>
    have file := (standing.late c w closing writing).1
    have same : s.late c w step io = s.late c w step := by
      have whole := whole.resolve_left nofun
      rw [file] at calls
      have loop := step_faltering calls (s.loop w) whole
      unfold Session.late
      rw [loop, file]
    rw [same]
    exact .late closing writing which
  | refuse closing joining gone may => cases may

end Session

end PageJournal
