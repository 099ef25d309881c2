import PageJournal.Proofs.Engine.LateDrain
import PageJournal.Proofs.Engine.Numbered
import PageJournal.Proofs.Engine.Standing
import PageJournal.Proofs.Lists
import PageJournal.Proofs.Log.Continued

/-! Closes that overlap. Each asks the services to stop, takes over those that no other close has
taken, waits for these alone, and then writes what it finds waiting. What another hand has swapped out by
then is neither waited for nor written first. -/
namespace PageJournal

open Log

/-- Records that were swapped out together, behind so many others. -/
structure Batch where
  first : Nat
  records : List Record
  deriving DecidableEq

/-- The places of these records among all that were added. -/
def Batch.places (b : Batch) : List Nat := List.range' b.first b.records.length

/-- How far a close of several has come. -/
inductive Progress where
  /-- It has asked the services to stop. -/
  | asked
  /-- It has taken over what services were left. -/
  | waiting
  /-- The services that it took are gone. -/
  | alone
  /-- It has seen records in the buffer. -/
  | late
  /-- It has swapped them out, and writes them through a file of its own. -/
  | holding (b : Batch)
  | drained
  | returned
  deriving DecidableEq

structure Closer where
  /-- How many records had been added when it was called. -/
  since : Nat
  /-- It took the log writer over. -/
  waits : Bool
  progress : Progress
  deriving DecidableEq

def Closer.held? (c : Closer) : Option Batch :=
  match c.progress with
  | .holding b => some b
  | _ => none

/-- Nothing that was added before the close was called is in the buffer any more. -/
def Progress.swept : Progress → Bool
  | .holding _ | .drained | .returned => true
  | _ => false

/-- An engine that producers, the log writer and any number of closes use at once. -/
structure Crowd where
  engine : Engine
  /-- No close has taken the log writer over. -/
  listed : Bool
  /-- What the log writer has swapped out and not yet written. -/
  hand : Option Batch
  closers : List Closer
  /-- Every record that was added, in this order. -/
  added : List Record
  /-- How many of them have been swapped out. -/
  swapped : Nat
  /-- The batches that were written, in this order. -/
  landed : List Batch
  /-- A batch was written while an older one was in another hand. -/
  overtaken : Bool

inductive Act where
  | add (r : Record)
  /-- The log writer swaps out what waits, writes what it holds, or ends. -/
  | swap
  | write
  | exit
  | call
  /-- The close that was called as this one does what it does next. -/
  | proceed (i : Nat)

namespace Crowd

def start (e : Engine) : Crowd := ⟨e, e.running, none, [], [], 0, [], false⟩

/-- The batches that are in some hand. -/
def held (s : Crowd) : List Batch := s.hand.toList ++ s.closers.filterMap Closer.held?

def batch (s : Crowd) : Batch := ⟨s.swapped, s.engine.buffer.records⟩

def swapOut (s : Crowd) : Crowd :=
  { s with engine := s.engine.emptied, swapped := s.swapped + s.engine.buffer.records.length }

def overtakes (s : Crowd) (b : Batch) : Bool :=
  !b.records.isEmpty && s.held.any fun c => !c.records.isEmpty && c.first < b.first

/-- A batch is written, with this effect on the engine. -/
def land (s : Crowd) (b : Batch) (e : Engine) : Crowd :=
  { s with
    engine := e
    landed := s.landed ++ [b]
    overtaken := s.overtaken || s.overtakes b }

def become (s : Crowd) (i : Nat) (c : Closer) : Crowd := { s with closers := s.closers.set i c }

/-- The next thing that a close does. A call on a file that fails is not looked at. -/
def advance (s : Crowd) (i : Nat) (c : Closer) : Option Crowd :=
  match c.progress with
  | .asked => some { s.become i { c with waits := s.listed, progress := .waiting } with listed := false }
  | .waiting =>
    if c.waits && s.engine.running then none else some (s.become i { c with progress := .alone })
  | .alone =>
    some (s.become i
      { c with progress := if s.engine.buffer.records.isEmpty then .drained else .late })
  | .late => some (s.swapOut.become i { c with progress := .holding s.batch })
  | .holding b =>
    match s.engine.deliverLate b.records with
    | (.ok _, e) => some ((s.land b e).become i { c with progress := .drained })
    | (.error _, _) => none
  | .drained =>
    some { s.become i { c with progress := .returned } with
      engine := Session.farewell s.engine c.waits }
  | .returned => none

def step (s : Crowd) : Act → Option Crowd
  | .add r =>
    some { s with
      engine := { s.engine with buffer := s.engine.buffer.add r }
      added := s.added ++ [r] }
  | .swap =>
    if s.engine.running && s.hand.isNone && !s.engine.buffer.records.isEmpty then
      some { s.swapOut with hand := some s.batch }
    else none
  | .write =>
    match s.hand with
    | none => none
    | some b =>
      match s.engine.flusher.deliver s.engine.sink b.records with
      | (.ok _, f) => some { s.land b (s.engine.withFlusher f) with hand := none }
      | (.error _, _) => none
  | .exit =>
    if s.engine.stop.requested && s.hand.isNone then
      some { s with engine := { s.engine with running := false } }
    else none
  | .call =>
    some { s with
      engine := s.engine.requestStop
      closers := s.closers ++ [⟨s.added.length, false, .asked⟩] }
  | .proceed i => do s.advance i (← s.closers[i]?)

def run (acts : List Act) (s : Crowd) : Option Crowd := acts.foldlM step s

/-- A close that nothing overlaps takes these steps. -/
theorem run_close {e after : Engine} (stopped : e.running = false) (closed : e.close = (.ok (), after)) :
    ∃ acts s, (start e).run acts = some s ∧ s.engine = after := by
  rw [Engine.close_stopped .ordinary stopped] at closed
  by_cases empty : e.buffer.records = []
  · rw [Engine.drainRemaining_nothing (by simpa using empty)] at closed
    cases closed
    refine ⟨[.call, .proceed 0, .proceed 0, .proceed 0, .proceed 0], ?_⟩
    simp [run, start, step, advance, become, stopped, empty, Session.farewell]
  · rw [Engine.drainRemaining_some (by simpa using empty)] at closed
    refine ⟨[.call, .proceed 0, .proceed 0, .proceed 0, .proceed 0, .proceed 0, .proceed 0], ?_⟩
    split at closed
    · cases closed
    · next delivered =>
      cases closed
      rw [Engine.requestStop_buffer] at delivered
      simp [run, start, step, advance, become, swapOut, batch, land, stopped, empty, delivered,
        Session.farewell]

/-- The places of the records in the log, in the order of the log. -/
def order (s : Crowd) : List Nat := s.landed.flatMap Batch.places

/-- The places of the records that are in some hand. -/
def carried (s : Crowd) : List Nat := s.held.flatMap Batch.places

/-- Where the records of a crowd are: in the log, in one hand, or in the buffer behind all others. -/
structure Shared (home : Path) (k : Nat) (old : Bytes) (s : Crowd) : Prop where
  layout : s.engine.Layout home k (old ++ s.landed.flatMap fun b => b.records.flatMap Record.line)
  counted : s.swapped ≤ s.added.length
  waiting : s.engine.buffer.records = s.added.drop s.swapped
  fits : ∀ b ∈ s.landed ++ s.held, b.records <+: s.added.drop b.first
  places : (s.order ++ s.carried).Perm (List.range s.swapped)
  marks : ∀ c ∈ s.closers, c.since ≤ s.added.length
  sure : ∀ c ∈ s.closers, c.progress.swept = true → c.since ≤ s.swapped
  turns : s.overtaken = false ↔ s.order = List.range s.order.length

variable {home : Path} {k : Nat} {old : Bytes} {s t : Crowd}

theorem shared_start {e : Engine} (layout : e.Layout home k old) (none : e.buffer.records = []) :
    Shared home k old (start e) where
  layout := by simpa [start] using layout
  counted := Nat.le_refl 0
  waiting := none
  fits := nofun
  places := .refl _
  marks := nofun
  sure := nofun
  turns := ⟨fun _ => rfl, fun _ => rfl⟩

theorem Shared.add (shared : Shared home k old s) (r : Record) (done : s.step (.add r) = some t) :
    Shared home k old t := by
  cases done
  refine ⟨shared.layout.congr rfl rfl rfl rfl rfl, ?_, ?_, fun b mem => ?_, shared.places,
    fun c mem => ?_, shared.sure, shared.turns⟩
  · rw [List.length_append]
    exact Nat.le_add_right_of_le shared.counted
  · rw [Buffer.records_add, shared.waiting, List.drop_append_of_le_length shared.counted]
  · rw [List.drop_append]
    exact (shared.fits b mem).trans (List.prefix_append _ _)
  · rw [List.length_append]
    exact Nat.le_add_right_of_le (shared.marks c mem)

/-- A step that moves no record. -/
theorem Shared.carry (shared : Shared home k old s)
    (layout : t.engine.Layout home k (old ++ s.landed.flatMap fun b => b.records.flatMap Record.line))
    (buffer : t.engine.buffer.records = s.engine.buffer.records) (added : t.added = s.added)
    (swapped : t.swapped = s.swapped) (landed : t.landed = s.landed)
    (overtaken : t.overtaken = s.overtaken) (held : t.held.Perm s.held)
    (marks : ∀ c ∈ t.closers, c.since ≤ s.added.length)
    (sure : ∀ c ∈ t.closers, c.progress.swept = true → c.since ≤ s.swapped) : Shared home k old t := by
  have order : t.order = s.order := by rw [order, order, landed]
  have carried : t.carried.Perm s.carried := held.flatMap_right Batch.places
  refine ⟨landed ▸ layout, ?_, ?_, fun b mem => ?_, ?_, added ▸ marks, swapped ▸ sure, ?_⟩
  · rw [swapped, added]
    exact shared.counted
  · rw [buffer, swapped, added]
    exact shared.waiting
  · rw [added]
    rw [landed] at mem
    exact shared.fits b (List.mem_append.mpr ((List.mem_append.mp mem).imp_right held.mem_iff.mp))
  · rw [order, swapped]
    exact (carried.append_left _).trans shared.places
  · rw [overtaken, order]
    exact shared.turns

/-- What waits is swapped out into a hand. -/
theorem Shared.take (shared : Shared home k old s)
    (layout : t.engine.Layout home k (old ++ s.landed.flatMap fun b => b.records.flatMap Record.line))
    (buffer : t.engine.buffer.records = []) (added : t.added = s.added)
    (swapped : t.swapped = s.swapped + s.engine.buffer.records.length) (landed : t.landed = s.landed)
    (overtaken : t.overtaken = s.overtaken) (held : t.held.Perm (s.batch :: s.held))
    (marks : ∀ c ∈ t.closers, c.since ≤ s.added.length) : Shared home k old t := by
  have order : t.order = s.order := by rw [order, order, landed]
  have whole : t.swapped = s.added.length := by
    have waiting := congrArg List.length shared.waiting
    rw [List.length_drop] at waiting
    have counted := shared.counted
    omega
  refine ⟨landed ▸ layout, ?_, ?_, fun b mem => ?_, ?_, added ▸ marks, fun c mem _ => ?_, ?_⟩
  · exact Nat.le_of_eq (whole.trans (congrArg List.length added.symm))
  · rw [buffer, added, whole, List.drop_length]
  · rw [added]
    rw [landed] at mem
    rcases List.mem_append.mp mem with before | now
    · exact shared.fits b (List.mem_append_left _ before)
    · rcases List.mem_cons.mp (held.mem_iff.mp now) with rfl | before
      · exact shared.waiting ▸ List.prefix_rfl
      · exact shared.fits b (List.mem_append_right _ before)
  · have carried : t.carried.Perm (s.batch.places ++ s.carried) := held.flatMap_right Batch.places
    have range : List.range t.swapped = List.range s.swapped ++ s.batch.places := by
      rw [swapped]
      exact (range_append s.swapped _).symm
    rw [order, range]
    refine (carried.append_left _).trans ?_
    refine (List.perm_append_comm.append_left _).trans ?_
    rw [← List.append_assoc]
    exact shared.places.append_right _
  · rw [whole]
    exact marks c mem
  · rw [overtaken, order]
    exact shared.turns

theorem mem_places {b : Batch} {i : Nat} :
    i ∈ b.places ↔ b.first ≤ i ∧ i < b.first + b.records.length := by
  rw [Batch.places, List.mem_range'_1]

theorem first_mem_places {b : Batch} (some : b.records ≠ []) : b.first ∈ b.places :=
  mem_places.mpr ⟨Nat.le_refl _, Nat.lt_add_of_pos_right (List.length_pos_iff.mpr some)⟩

theorem overtakes_eq_true {b : Batch} : s.overtakes b = true ↔
    b.records ≠ [] ∧ ∃ c ∈ s.held, c.records ≠ [] ∧ c.first < b.first := by
  simp [overtakes]

theorem eq_range_of_append {a b : List Nat} {n : Nat} (whole : a ++ b = List.range n) :
    a = List.range a.length := by
  have short := congrArg (List.take a.length) whole
  have fits := congrArg List.length whole
  rw [List.length_append, List.length_range] at fits
  rw [List.take_left, List.take_range, Nat.min_eq_left (by omega)] at short
  exact short

/-- The log goes on in the order of addition exactly if no older record is in another hand. -/
theorem Shared.in_turn (shared : Shared home k old s) {b : Batch} {rest : List Batch}
    (held : s.held.Perm (b :: rest)) :
    (s.overtaken || s.overtakes b) = false ↔
      s.order ++ b.places = List.range (s.order ++ b.places).length := by
  have distinct : (s.order ++ s.carried).Nodup := shared.places.nodup_iff.mpr List.nodup_range
  have apart : ∀ i ∈ s.order, i ∉ s.carried := List.disjoint_of_nodup_append distinct
  have all : ∀ i, i ∈ s.order ∨ i ∈ s.carried ↔ i < s.swapped := fun i => by
    rw [← List.mem_append, shared.places.mem_iff, List.mem_range]
  have own : b ∈ s.held := held.mem_iff.mpr List.mem_cons_self
  have first : ∀ c ∈ s.held, c.records ≠ [] → c.first ∈ s.carried :=
    fun c mem some => List.mem_flatMap.mpr ⟨c, mem, first_mem_places some⟩
  rw [Bool.or_eq_false_iff, shared.turns]
  constructor
  · rintro ⟨front, alone⟩
    by_cases empty : b.records = []
    · simpa [Batch.places, empty] using front
    · have carried := first b own empty
      have low : s.order.length ≤ b.first := by
        refine Nat.le_of_not_lt fun less => apart b.first ?_ carried
        rw [front]
        exact List.mem_range.mpr less
      have high : ¬ s.order.length < b.first := by
        intro less
        -- the next place is in a hand, and that hand is older
        have next := (all s.order.length).mpr (Nat.lt_trans less ((all b.first).mp (.inr carried)))
        have missing : s.order.length ∉ s.order := by
          rw [front, List.mem_range, List.length_range]
          exact Nat.lt_irrefl _
        obtain ⟨c, mem, inside⟩ := List.mem_flatMap.mp (next.resolve_left missing)
        have some : c.records ≠ [] := by
          intro none
          simp [Batch.places, none] at inside
        have older := overtakes_eq_true.mpr
          ⟨empty, c, mem, some, Nat.lt_of_le_of_lt (mem_places.mp inside).1 less⟩
        rw [alone] at older
        cases older
      have here : b.first = s.order.length := by omega
      have whole : s.order ++ b.places = List.range (s.order.length + b.records.length) := by
        rw [← range_append, ← front, Batch.places, here]
      rw [whole, List.length_range]
  · intro whole
    refine ⟨eq_range_of_append whole, ?_⟩
    rw [Bool.eq_false_iff]
    intro overtakes
    obtain ⟨some, c, mem, other, older⟩ := overtakes_eq_true.mp overtakes
    have before : c.first ∈ s.order ++ b.places := by
      have inside := List.mem_append_right s.order (first_mem_places some)
      rw [whole, List.mem_range] at inside ⊢
      exact Nat.lt_trans older inside
    rcases List.mem_append.mp before with landed | same
    · exact apart _ landed (first c mem other)
    · exact Nat.lt_irrefl _ (Nat.lt_of_lt_of_le older (mem_places.mp same).1)

/-- A batch goes from a hand to the log. -/
theorem Shared.land (shared : Shared home k old s) {b : Batch}
    (layout : t.engine.Layout home k (old ++ (s.landed.flatMap fun b => b.records.flatMap Record.line) ++
      b.records.flatMap Record.line))
    (buffer : t.engine.buffer.records = s.engine.buffer.records) (added : t.added = s.added)
    (swapped : t.swapped = s.swapped) (landed : t.landed = s.landed ++ [b])
    (overtaken : t.overtaken = (s.overtaken || s.overtakes b)) (held : s.held.Perm (b :: t.held))
    (marks : ∀ c ∈ t.closers, c.since ≤ s.added.length)
    (sure : ∀ c ∈ t.closers, c.progress.swept = true → c.since ≤ s.swapped) : Shared home k old t := by
  have order : t.order = s.order ++ b.places := by
    rw [order, order, landed, List.flatMap_append, List.flatMap_singleton]
  have carried : s.carried.Perm (b.places ++ t.carried) := held.flatMap_right Batch.places
  refine ⟨?_, ?_, ?_, fun c mem => ?_, ?_, added ▸ marks, swapped ▸ sure, ?_⟩
  · rw [landed, List.flatMap_append, List.flatMap_singleton, ← List.append_assoc]
    exact layout
  · rw [swapped, added]
    exact shared.counted
  · rw [buffer, swapped, added]
    exact shared.waiting
  · rw [added]
    refine shared.fits c ?_
    rw [landed, List.append_assoc] at mem
    exact List.mem_append.mpr ((List.mem_append.mp mem).imp_right held.mem_iff.mpr)
  · rw [order, swapped, List.append_assoc]
    exact (carried.symm.append_left _).trans shared.places
  · rw [overtaken, order]
    exact shared.in_turn held

theorem held_become {i : Nat} {c : Closer} (here : s.closers[i]? = some c) :
    ∃ others, s.held.Perm (c.held?.toList ++ others) ∧
      ∀ c', (s.become i c').held.Perm (c'.held?.toList ++ others) := by
  obtain ⟨others, before, after⟩ := filterMap_set Closer.held? here
  have moved : ∀ {closers : List Batch} (c' : Closer), closers.Perm (c'.held?.toList ++ others) →
      (s.hand.toList ++ closers).Perm (c'.held?.toList ++ (s.hand.toList ++ others)) := by
    intro closers c' perm
    refine (perm.append_left _).trans ?_
    rw [← List.append_assoc, ← List.append_assoc]
    exact List.perm_append_comm.append_right _
  exact ⟨_, moved c before, fun c' => moved c' (after c')⟩

theorem Shared.swap (shared : Shared home k old s) (done : s.step .swap = some t) :
    Shared home k old t := by
  dsimp only [Crowd.step] at done
  split at done
  · next free =>
    cases done
    simp only [Bool.and_eq_true, Option.isNone_iff_eq_none] at free
    have held : s.held = s.closers.filterMap Closer.held? := by
      rw [held, free.1.2]
      rfl
    refine shared.take (shared.layout.congr rfl rfl rfl rfl rfl) rfl rfl rfl rfl rfl ?_ shared.marks
    rw [held]
    exact .refl _
  · cases done

theorem Shared.write (shared : Shared home k old s) (done : s.step .write = some t) :
    Shared home k old t := by
  dsimp only [Crowd.step] at done
  split at done
  · cases done
  · next b hand =>
    have sink : s.engine.sink = .ofHandle (.file k) := congrArg Sink.ofHandle shared.layout.writer
    obtain ⟨after, delivered, buffer, events, grown⟩ :=
      shared.layout.deliver b.records (f := s.engine.flusher) rfl
    rw [sink, delivered] at done
    cases done
    refine shared.land (b := b) ?_ (congrArg Buffer.records buffer) rfl rfl rfl rfl ?_ shared.marks
      shared.sure
    · exact grown.congr rfl rfl rfl rfl (congrArg EventLog.file events)
    · rw [held, hand]
      exact .refl _

theorem Shared.exit (shared : Shared home k old s) (done : s.step .exit = some t) :
    Shared home k old t := by
  dsimp only [Crowd.step] at done
  split at done
  · cases done
    exact shared.carry (shared.layout.congr rfl rfl rfl rfl rfl) rfl rfl rfl rfl rfl (.refl _)
      shared.marks shared.sure
  · cases done

theorem Shared.call (shared : Shared home k old s) (done : s.step .call = some t) :
    Shared home k old t := by
  cases done
  refine shared.carry shared.layout.requestStop (by simp) rfl rfl rfl rfl ?_ (fun c mem => ?_)
    fun c mem swept => ?_
  · have none : [(⟨s.added.length, false, .asked⟩ : Closer)].filterMap Closer.held? = [] := rfl
    simp only [held, List.filterMap_append, none, List.append_nil]
    exact .refl _
  · rcases List.mem_append.mp mem with before | now
    · exact shared.marks c before
    · cases List.mem_singleton.mp now
      exact Nat.le_refl _
  · rcases List.mem_append.mp mem with before | now
    · exact shared.sure c before swept
    · cases List.mem_singleton.mp now
      cases swept

theorem Shared.marks_set (shared : Shared home k old s) {i : Nat} {c c' : Closer}
    (here : s.closers[i]? = some c) (since : c'.since = c.since) :
    ∀ x ∈ s.closers.set i c', x.since ≤ s.added.length := by
  intro x mem
  rcases List.mem_or_eq_of_mem_set mem with before | rfl
  · exact shared.marks x before
  · exact since ▸ shared.marks c (List.mem_of_getElem? here)

theorem Shared.sure_set (shared : Shared home k old s) {i : Nat} {c' : Closer}
    (sure : c'.progress.swept = true → c'.since ≤ s.swapped) :
    ∀ x ∈ s.closers.set i c', x.progress.swept = true → x.since ≤ s.swapped := by
  intro x mem swept
  rcases List.mem_or_eq_of_mem_set mem with before | rfl
  · exact shared.sure x before swept
  · exact sure swept

theorem Shared.become (shared : Shared home k old s) {i : Nat} {c c' : Closer}
    (here : s.closers[i]? = some c) (since : c'.since = c.since) (held : c'.held? = c.held?)
    (sure : c'.progress.swept = true → c.since ≤ s.swapped) : Shared home k old (s.become i c') := by
  obtain ⟨others, before, after⟩ := held_become here
  refine shared.carry shared.layout rfl rfl rfl rfl rfl ?_ (shared.marks_set here since)
    (shared.sure_set (since ▸ sure))
  exact (held ▸ after c').trans before.symm

theorem Shared.advance (shared : Shared home k old s) {i : Nat} {c : Closer}
    (here : s.closers[i]? = some c) (done : s.advance i c = some t) : Shared home k old t := by
  unfold Crowd.advance at done
  rcases stage : c.progress with _ | _ | _ | _ | b | _ | _
  all_goals simp only [stage] at done
  -- only a close that holds a batch is seen among the hands
  case asked =>
    cases done
    have taken : Shared home k old (s.become i { c with waits := s.listed, progress := .waiting }) :=
      shared.become here rfl (by simp [Closer.held?, stage]) nofun
    exact taken.carry taken.layout rfl rfl rfl rfl rfl (.refl _) taken.marks taken.sure
  case waiting =>
    split at done
    · cases done
    · cases done
      exact shared.become here rfl (by simp [Closer.held?, stage]) nofun
  case alone =>
    cases done
    by_cases none : s.engine.buffer.records = []
    · simp only [none, List.isEmpty_nil, if_true]
      refine shared.become here rfl (by simp [Closer.held?, stage]) fun _ => ?_
      have all : s.added.length ≤ s.swapped := List.drop_eq_nil_iff.mp (shared.waiting.symm.trans none)
      exact Nat.le_trans (shared.marks c (List.mem_of_getElem? here)) all
    · have some : s.engine.buffer.records.isEmpty = false := by simpa using none
      simp only [some, Bool.false_eq_true, if_false]
      exact shared.become here rfl (by simp [Closer.held?, stage]) nofun
  case late =>
    cases done
    obtain ⟨others, before, after⟩ := held_become here
    refine shared.take (shared.layout.congr rfl rfl rfl rfl rfl) rfl rfl rfl rfl rfl ?_
      (shared.marks_set here rfl)
    have empty : c.held? = none := by simp [Closer.held?, stage]
    rw [empty] at before
    exact (after { c with progress := .holding s.batch }).trans (before.symm.cons _)
  case holding =>
    obtain ⟨n, written, delivered, buffer, grown⟩ := shared.layout.deliverLate b.records
    rw [delivered] at done
    cases done
    obtain ⟨others, before, after⟩ := held_become here
    have holds : c.held? = some b := by simp [Closer.held?, stage]
    rw [holds] at before
    have sure := shared.sure c (List.mem_of_getElem? here) (by simp [stage, Progress.swept])
    refine shared.land (b := b) grown (congrArg Buffer.records buffer) rfl rfl rfl rfl ?_
      (shared.marks_set here rfl) (shared.sure_set fun _ => sure)
    exact before.trans ((after { c with progress := .drained }).symm.cons b)
  case drained =>
    cases done
    have sure := shared.sure c (List.mem_of_getElem? here) (by simp [stage, Progress.swept])
    have left : Shared home k old (s.become i { c with progress := .returned }) :=
      shared.become here rfl (by simp [Closer.held?, stage]) fun _ => sure
    have buffer : (Session.farewell s.engine c.waits).buffer = s.engine.buffer := by
      cases c.waits <;> rfl
    exact left.carry (left.layout.farewell c.waits) (congrArg Buffer.records buffer) rfl rfl rfl rfl
      (.refl _) left.marks left.sure
  case returned => cases done

theorem Shared.step (shared : Shared home k old s) {a : Act} (done : s.step a = some t) :
    Shared home k old t := by
  cases a with
  | add r => exact shared.add r done
  | swap => exact shared.swap done
  | write => exact shared.write done
  | exit => exact shared.exit done
  | call => exact shared.call done
  | proceed i =>
    obtain ⟨c, here, done⟩ := Option.bind_eq_some_iff.mp done
    exact shared.advance here done

theorem run_keeps (kept : Crowd → Prop) (keeps : ∀ s a t, kept s → step s a = some t → kept t)
    {acts : List Act} (here : kept s) (done : s.run acts = some t) : kept t := by
  induction acts generalizing s with
  | nil =>
    cases done
    exact here
  | cons a rest ih =>
    rw [run, List.foldlM_cons] at done
    obtain ⟨next, first, later⟩ := Option.bind_eq_some_iff.mp done
    exact ih (keeps s a next here first) later

/-- Whoever took the log writer over goes on only once it is gone, and then it holds nothing. -/
structure Waited (s : Crowd) : Prop where
  empty : s.engine.running = false → s.hand = none
  gone : ∀ c ∈ s.closers, c.waits = true → c.progress ≠ .waiting → s.engine.running = false

theorem Waited.keep (waited : s.Waited) (running : t.engine.running = s.engine.running)
    (hand : t.hand = s.hand ∨ s.engine.running = true ∨ t.hand = none)
    (closers : ∀ c ∈ t.closers, c ∈ s.closers ∨
      (c.waits = true → c.progress ≠ .waiting → s.engine.running = false)) : t.Waited := by
  refine ⟨fun stopped => ?_, fun c mem waits other => ?_⟩
  · rw [running] at stopped
    rcases hand with same | busy | empty
    · exact same.trans (waited.empty stopped)
    · rw [stopped] at busy
      cases busy
    · exact empty
  · rw [running]
    rcases closers c mem with before | gone
    · exact waited.gone c before waits other
    · exact gone waits other

theorem running_deliverLate (e : Engine) (batch : List Record) :
    (e.deliverLate batch).2.running = e.running := by
  unfold Engine.deliverLate
  split
  · rfl
  · split <;> rfl

theorem Waited.advance (waited : s.Waited) {i : Nat} {c : Closer} (here : s.closers[i]? = some c)
    (done : s.advance i c = some t) : t.Waited := by
  have set : ∀ c', (c'.waits = true → c'.progress ≠ .waiting → s.engine.running = false) →
      ∀ x ∈ s.closers.set i c', x ∈ s.closers ∨
        (x.waits = true → x.progress ≠ .waiting → s.engine.running = false) := by
    intro c' gone x mem
    rcases List.mem_or_eq_of_mem_set mem with before | rfl
    · exact .inl before
    · exact .inr gone
  have gone := waited.gone c (List.mem_of_getElem? here)
  unfold Crowd.advance at done
  rcases stage : c.progress with _ | _ | _ | _ | b | _ | _
  all_goals simp only [stage] at done gone
  case asked =>
    cases done
    exact waited.keep rfl (.inl rfl) (set _ fun _ other => absurd rfl other)
  case waiting =>
    split at done
    · cases done
    · next free =>
      cases done
      refine waited.keep rfl (.inl rfl) (set _ fun waits _ => ?_)
      have stopped : c.waits = true → s.engine.running = false := by simpa using free
      exact stopped waits
  case holding =>
    split at done
    · next written =>
      cases done
      have running := running_deliverLate s.engine b.records
      rw [written] at running
      exact waited.keep running (.inl rfl) (set _ fun waits _ => gone waits nofun)
    · cases done
  case drained =>
    cases done
    have running : (Session.farewell s.engine c.waits).running = s.engine.running := by
      cases c.waits <;> rfl
    exact waited.keep running (.inl rfl) (set _ fun waits _ => gone waits nofun)
  case returned => cases done
  all_goals
    cases done
    exact waited.keep rfl (.inl rfl) (set _ fun waits _ => gone waits nofun)

theorem Waited.step (waited : s.Waited) {a : Act} (done : s.step a = some t) : t.Waited := by
  cases a with
  | add r =>
    cases done
    exact waited.keep rfl (.inl rfl) fun _ mem => .inl mem
  | swap =>
    dsimp only [Crowd.step] at done
    split at done
    · next free =>
      cases done
      simp only [Bool.and_eq_true] at free
      exact waited.keep rfl (.inr (.inl free.1.1)) fun _ mem => .inl mem
    · cases done
  | write =>
    dsimp only [Crowd.step] at done
    split at done
    · cases done
    · split at done
      · cases done
        exact waited.keep rfl (.inr (.inr rfl)) fun _ mem => .inl mem
      · cases done
  | exit =>
    dsimp only [Crowd.step] at done
    split at done
    · next free =>
      cases done
      simp only [Bool.and_eq_true, Option.isNone_iff_eq_none] at free
      exact ⟨fun _ => free.2, fun _ _ _ _ => rfl⟩
    · cases done
  | call =>
    cases done
    refine waited.keep (Engine.requestStop_running _) (.inl rfl) fun c mem => ?_
    rcases List.mem_append.mp mem with before | now
    · exact .inl before
    · cases List.mem_singleton.mp now
      exact .inr nofun
  | proceed i =>
    obtain ⟨c, here, done⟩ := Option.bind_eq_some_iff.mp done
    exact waited.advance here done

theorem filterMap_places {b : Batch} {rs : List Record} (fits : b.records <+: rs.drop b.first) :
    b.places.filterMap (rs[·]?) = b.records := by
  obtain ⟨first, records⟩ := b
  simp only [Batch.places] at fits ⊢
  induction records generalizing first with
  | nil => rfl
  | cons r rest ih =>
    obtain ⟨behind, whole⟩ := fits
    have here : rs[first]? = some r := by
      have heads := congrArg (·[0]?) whole
      simpa using heads.symm
    have next : rs.drop (first + 1) = rest ++ behind := by
      rw [← List.drop_drop, ← whole]
      rfl
    rw [List.length_cons, List.range'_succ, List.filterMap_cons, here,
      ih (first + 1) ⟨behind, next.symm⟩]

theorem filterMap_range {rs : List Record} {n : Nat} (fits : n ≤ rs.length) :
    (List.range n).filterMap (rs[·]?) = rs.take n := by
  have places : (⟨0, rs.take n⟩ : Batch).places = List.range n := by
    rw [Batch.places, List.length_take, Nat.min_eq_left fits, List.range_eq_range']
  rw [← places]
  exact filterMap_places (List.take_prefix n rs)

theorem Shared.filterMap_order (shared : Shared home k old s) :
    s.order.filterMap (s.added[·]?) = s.landed.flatMap Batch.records := by
  have fits := fun b mem => shared.fits b (List.mem_append_left _ mem)
  rw [order]
  generalize s.landed = landed at fits ⊢
  induction landed with
  | nil => rfl
  | cons b rest ih =>
    rw [List.flatMap_cons, List.flatMap_cons, List.filterMap_append,
      filterMap_places (fits b List.mem_cons_self), ih fun c mem => fits c (List.mem_cons_of_mem b mem)]

/-- However closes overlap, every record is in the log, in one hand, or in the buffer behind all others.
A close that has returned may miss what another hand still holds, and nothing else; if it took the log
writer over, that hand is another close's. The log is in the order of addition exactly if no batch was
written while an older one was in another hand, and then, behind whole lines, it is recovered as it was
added. -/
theorem close_overlap {e : Engine} {acts : List Act} (layout : e.Layout home k old)
    (empty : e.buffer.records = []) (done : (start e).run acts = some s) :
    let written := s.order.filterMap (s.added[·]?)
    s.engine.store.disk.read s.engine.logPath = .ok (old ++ written.flatMap Record.line) ∧
      s.engine.buffer.records = s.added.drop s.swapped ∧
      (s.order ++ s.carried ++ List.range' s.swapped (s.added.length - s.swapped)).Perm
        (List.range s.added.length) ∧
      (∀ c ∈ s.closers, c.progress = .returned →
        ((∀ i < c.since, i ∈ s.order) ↔ ∀ i < c.since, i ∉ s.carried) ∧
        (c.waits = true → s.hand = none)) ∧
      (s.overtaken = false ↔ s.order = List.range s.order.length) ∧
      (s.overtaken = false → written <+: s.added ∧ (Closed old → Follows old s.added →
        Continues old written (old ++ written.flatMap Record.line))) := by
  have shared := run_keeps (Shared home k old) (fun _ _ _ shared => shared.step)
    (shared_start layout empty) done
  have started : (start e).Waited := ⟨fun _ => rfl, fun _ mem => absurd mem List.not_mem_nil⟩
  have waited := run_keeps Waited (fun _ _ _ waited => waited.step) started done
  have distinct : (s.order ++ s.carried).Nodup := shared.places.nodup_iff.mpr List.nodup_range
  intro written
  refine ⟨?_, shared.waiting, ?_, fun c mem returned => ?_, shared.turns, fun kept => ?_⟩
  · have read := shared.layout.read
    rw [← List.flatMap_assoc, ← shared.filterMap_order] at read
    exact read
  · have rest := range_append s.swapped (s.added.length - s.swapped)
    rw [Nat.add_sub_cancel' shared.counted] at rest
    rw [← rest]
    exact shared.places.append_right _
  · have since := shared.sure c mem (by rw [returned]; rfl)
    refine ⟨⟨?_, ?_⟩, fun waits => waited.empty (waited.gone c mem waits (by rw [returned]; nofun))⟩
    · exact fun landed i old => List.disjoint_of_nodup_append distinct (landed i old)
    · intro free i old
      have found : i ∈ s.order ++ s.carried :=
        shared.places.mem_iff.mpr (List.mem_range.mpr (Nat.lt_of_lt_of_le old since))
      exact (List.mem_append.mp found).resolve_right (free i old)
  · have inTurn := shared.turns.mp kept
    have fits : s.order.length ≤ s.added.length := by
      have most := shared.places.length_eq
      rw [List.length_append, List.length_range] at most
      have counted := shared.counted
      omega
    have front : written <+: s.added := by
      have taken : written = s.added.take s.order.length := by
        rw [← filterMap_range fits, ← inTurn]
      rw [taken]
      exact List.take_prefix _ _
    exact ⟨front, fun closed follows => continues_closed closed (follows.front front)⟩

/-- An engine that is running, with these bytes in its log and nothing in the buffer. -/
def idle (old : Bytes) : Engine :=
  { Engine.leftover (.file 0 old.reverse) with buffer := .create 4, stop := {}, running := true }

theorem layout_idle : (idle []).Layout ["data"] 0 [] :=
  Engine.layout_leftover.congr rfl rfl rfl rfl rfl

def committing (r : Record) : Record := { r with lsn := r.lsn + 1, committed := true }

def logAfter (acts : List Act) (e : Engine) : Option Bytes := do
  let s ← (start e).run acts
  (s.engine.store.disk.read s.engine.logPath).toOption

/-- Two closes at once, of which the first waits for the log writer and the second for nothing, yet the
log writer is in time. -/
theorem close_overlap_in_time :
    let first := Record.numbered 1
    let acts : List Act := [.add first, .swap, .call, .call, .proceed 0, .proceed 1, .write,
      .add (committing first), .exit, .proceed 0, .proceed 0, .proceed 0, .proceed 0, .proceed 0,
      .proceed 1, .proceed 1, .proceed 1]
    ∃ s, (start (idle [])).run acts = some s ∧
      s.closers.map Closer.progress = [.returned, .returned] ∧ s.overtaken = false ∧
      s.engine.store.disk.read s.engine.logPath = .ok (first.line ++ (committing first).line) := by
  intro first acts
  have computed : ((start (idle [])).run acts).map (fun s =>
      (s.closers.map Closer.progress, s.overtaken, s.order.filterMap (s.added[·]?))) =
      some ([.returned, .returned], false, [first, committing first]) := by decide +kernel
  obtain ⟨s, done, known⟩ := Option.map_eq_some_iff.mp computed
  simp only [Prod.mk.injEq] at known
  obtain ⟨progress, inTime, written⟩ := known
  have read := (close_overlap layout_idle rfl done).1
  rw [written] at read
  exact ⟨s, done, progress, inTime, by simpa using read⟩

/-- The second close returns while the log writer holds the first record, and has written the second
one. The log writer comes later: the commit then stands in front, which recovery reports. It reports the
same without any overlap where the log ended within a line. -/
theorem close_overtakes :
    let first := Record.numbered 1
    let commit := committing first
    let early : List Act := [.add first, .swap, .add commit, .call, .call, .proceed 0, .proceed 1,
      .proceed 1, .proceed 1, .proceed 1, .proceed 1, .proceed 1]
    let single : List Act := [.add first, .add commit, .call, .proceed 0, .exit, .proceed 0, .proceed 0,
      .proceed 0, .proceed 0, .proceed 0]
    let torn := textBytes "TXN:7|LSN:13|THR"
    ((start (idle [])).run early).map (fun s => s.closers.map fun c => (c.since, c.progress)) =
        some [(2, .waiting), (2, .returned)] ∧
      logAfter early (idle []) = some commit.line ∧
      logAfter (early ++ [.write]) (idle []) = some (commit.line ++ first.line) ∧
      (recover (commit.line ++ first.line)).2.orderingViolations = [1] ∧
      (logAfter single (idle torn)).map (fun log => (recover log).2.orderingViolations) = some [1] ∧
      (recover torn).2.orderingViolations = [] := by
  decide +kernel

end Crowd

end PageJournal
