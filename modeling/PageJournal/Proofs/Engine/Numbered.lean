import Mathlib.Algebra.GroupWithZero.Nat
import PageJournal.Proofs.Engine.Session
import PageJournal.Proofs.Lists
import PageJournal.Proofs.Log.Cut

/-! The numbers of a run. They go on behind the last ones in the log that was opened. As long as they
fit into their words every one is handed out once, so no two records have the same sequence number, and
the records of a transaction stand in the order in which they were made. -/
namespace PageJournal

open Log

namespace Stage

/-- How many sequence numbers the transaction still takes at most. -/
def room : Stage → Nat
  | .claimed _ => 2
  | .begun _ | .intended _ | .applied _ => 1
  | .numbered _ _ | .ended => 0

/-- The number that no record has yet. -/
def holds : Stage → Option UInt64
  | .begun t => some t.lsn
  | .numbered _ lsn => some lsn
  | .claimed _ | .intended _ | .applied _ | .ended => none

/-- What the stage tells of the transaction's records. -/
def Fits (id : UInt64) (own : List Record) : Stage → Prop
  | .claimed known => known = id ∧ own = []
  | .begun t => t.id = id ∧ t.committed = false ∧ own = []
  | .intended t | .applied t =>
    t.id = id ∧ t.committed = false ∧ ∃ before, before.committed = false ∧ own = [before]
  | .numbered t lsn => t.id = id ∧ t.committed = true ∧
    ∃ before, before.committed = false ∧ before.lsn < lsn ∧ own = [before]
  | .ended => InOrder own

theorem Fits.inOrder {id : UInt64} {own : List Record} {stage : Stage} (fits : stage.Fits id own) :
    InOrder own := by
  cases stage with
  | claimed known => exact .inl fits.2
  | begun t => exact .inl fits.2.2
  | intended t =>
    obtain ⟨-, -, before, early, same⟩ := fits
    exact .inr ⟨before, early, .inl same⟩
  | applied t =>
    obtain ⟨-, -, before, early, same⟩ := fits
    exact .inr ⟨before, early, .inl same⟩
  | numbered t lsn =>
    obtain ⟨-, -, before, early, -, same⟩ := fits
    exact .inr ⟨before, early, .inl same⟩
  | ended => exact fits

end Stage

/-- The last sequence number and the last transaction before a run. -/
structure Marks where
  lsn : Nat
  transaction : Nat
  deriving DecidableEq

/-- The number of the transaction that began at a position. -/
def Marks.idAt (b : Marks) (i : Nat) : UInt64 := UInt64.ofNat (b.transaction + i + 1)

/-- Behind the marks, there are numbers for so many transactions. -/
structure Marks.Room (b : Marks) (n : Nat) : Prop where
  lsns : b.lsn + 2 * n < 2 ^ 64
  ids : b.transaction + n < 2 ^ 64

theorem Marks.Room.mono {b : Marks} {m n : Nat} (room : b.Room n) (le : m ≤ n) : b.Room m :=
  ⟨by have := room.lsns; omega, by have := room.ids; omega⟩

theorem Marks.toNat_idAt {b : Marks} {i n : Nat} (room : b.Room n) (inside : i < n) :
    (b.idAt i).toNat = b.transaction + i + 1 := by
  have ids := room.ids
  rw [idAt, UInt64.toNat_ofNat']
  exact Nat.mod_eq_of_lt (by omega)

theorem Marks.idAt_inj {b : Marks} {i i' n : Nat} (room : b.Room n) (inside : i < n)
    (inside' : i' < n) (same : b.idAt i = b.idAt i') : i = i' := by
  have nats := congrArg UInt64.toNat same
  rw [toNat_idAt room inside, toNat_idAt room inside'] at nats
  omega

theorem Marks.idAt_succ (b : Marks) (i : Nat) : b.idAt (i + 1) = b.idAt i + 1 :=
  UInt64.ofNat_add (b.transaction + i + 1) 1

namespace Session

/-- Behind the marks no sequence number above `j` has been handed out, and the others are where they
belong. -/
structure Numbered (b : Marks) (j : Nat) (s : Session) : Prop where
  next : j + 1 < 2 ^ 64 → s.engine.sequence.next = UInt64.ofNat (j + 1)
  transaction : s.engine.nextTransaction = b.idAt s.stages.length
  later : b.lsn ≤ j
  spent : j + (s.stages.map Stage.room).sum ≤ b.lsn + 2 * s.stages.length
  below : ∀ r ∈ s.added, b.lsn < r.lsn.toNat ∧ r.lsn.toNat ≤ j
  distinct : (s.added.map Record.lsn).Nodup
  held : ∀ (i : Nat) (stage : Stage) n, s.stages[i]? = some stage → stage.holds = some n →
    (b.lsn < n.toNat ∧ n.toNat ≤ j) ∧ n ∉ s.added.map Record.lsn
  apart : ∀ (i i' : Nat) (stage stage' : Stage) n,
    s.stages[i]? = some stage → s.stages[i']? = some stage' →
    stage.holds = some n → stage'.holds = some n → i = i'
  fits : ∀ (i : Nat) (stage : Stage), s.stages[i]? = some stage → stage.Fits (b.idAt i) (ofId (b.idAt i) s.added)
  owned : ∀ r ∈ s.added, ∃ i < s.stages.length, r.transaction = b.idAt i

variable {b : Marks} {j : Nat} {s : Session}

/-- A step that touches no transaction and hands out no number. -/
theorem Numbered.same (numbered : s.Numbered b j) {t : Session} (stages : t.stages = s.stages)
    (added : t.added = s.added) (next : t.engine.sequence.next = s.engine.sequence.next)
    (transaction : t.engine.nextTransaction = s.engine.nextTransaction) : t.Numbered b j where
  next fits := next.trans (numbered.next fits)
  transaction := by rw [transaction, stages, numbered.transaction]
  later := numbered.later
  spent := stages ▸ numbered.spent
  below := added ▸ numbered.below
  distinct := added ▸ numbered.distinct
  held := by
    rw [stages, added]
    exact numbered.held
  apart := stages ▸ numbered.apart
  fits := by
    rw [stages, added]
    exact numbered.fits
  owned := by
    rw [stages, added]
    exact numbered.owned

theorem getElem?_move {stages : List Stage} {i i' : Nat} {new stage : Stage}
    (there : (stages.set i new)[i']? = some stage) :
    i = i' ∧ stage = new ∨ i ≠ i' ∧ stages[i']? = some stage := by
  rw [List.getElem?_set] at there
  split at there
  · next same =>
    split at there
    · cases there
      exact .inl ⟨same, rfl⟩
    · cases there
  · next other => exact .inr ⟨other, there⟩

theorem spent_move {stages : List Stage} {i : Nat} {stage : Stage}
    (here : stages[i]? = some stage) (new : Stage) :
    ((stages.set i new).map Stage.room).sum + stage.room =
      (stages.map Stage.room).sum + new.room := by
  rw [List.map_set]
  exact sum_set (by rw [List.getElem?_map, here]; rfl) new.room

/-- A transaction goes on without adding a record, and perhaps takes a number. -/
theorem Numbered.move (numbered : s.Numbered b j) {i : Nat} {stage new : Stage}
    (here : s.stages[i]? = some stage) {e : Engine} {j' : Nat} (later : j ≤ j')
    (next : j' + 1 < 2 ^ 64 → e.sequence.next = UInt64.ofNat (j' + 1))
    (transaction : e.nextTransaction = s.engine.nextTransaction)
    (room : j' + new.room ≤ j + stage.room)
    (holds : ∀ n, new.holds = some n → stage.holds = some n ∨ j < n.toNat ∧ n.toNat ≤ j')
    (fits : new.Fits (b.idAt i) (ofId (b.idAt i) s.added)) : (s.move i new e).Numbered b j' := by
  have length : (s.stages.set i new).length = s.stages.length := List.length_set
  have fresh : ∀ (i' : Nat) (other : Stage) n, s.stages[i']? = some other → other.holds = some n → ¬ j < n.toNat :=
    fun i' other n there held => Nat.not_lt.mpr (numbered.held i' other n there held).1.2
  refine ⟨next, ?_, Nat.le_trans numbered.later later, ?_, ?_, numbered.distinct, ?_, ?_, ?_, ?_⟩
  · exact transaction.trans (numbered.transaction.trans (congrArg b.idAt length.symm))
  · have sums := spent_move here new
    have spent := numbered.spent
    simp only [Session.move, length]
    omega
  · exact fun r mem => ⟨(numbered.below r mem).1, Nat.le_trans (numbered.below r mem).2 later⟩
  · intro i' other n there held
    rcases getElem?_move there with ⟨rfl, rfl⟩ | ⟨-, there⟩
    · rcases holds n held with old | ⟨above, bound⟩
      · obtain ⟨⟨low, bound⟩, absent⟩ := numbered.held i stage n here old
        exact ⟨⟨low, Nat.le_trans bound later⟩, absent⟩
      · refine ⟨⟨Nat.lt_of_le_of_lt numbered.later above, bound⟩, fun mem => ?_⟩
        obtain ⟨r, known, rfl⟩ := List.mem_map.mp mem
        exact absurd above (Nat.not_lt.mpr (numbered.below r known).2)
    · obtain ⟨⟨low, bound⟩, absent⟩ := numbered.held i' other n there held
      exact ⟨⟨low, Nat.le_trans bound later⟩, absent⟩
  · intro a b first second n thereA thereB heldA heldB
    rcases getElem?_move thereA with ⟨rfl, rfl⟩ | ⟨-, oldA⟩
    · rcases getElem?_move thereB with ⟨same, -⟩ | ⟨-, oldB⟩
      · exact same
      · rcases holds n heldA with old | ⟨above, -⟩
        · exact numbered.apart i b stage second n here oldB old heldB
        · exact absurd above (fresh b second n oldB heldB)
    · rcases getElem?_move thereB with ⟨rfl, rfl⟩ | ⟨-, oldB⟩
      · rcases holds n heldB with old | ⟨above, -⟩
        · exact numbered.apart a i first stage n oldA here heldA old
        · exact absurd above (fresh a first n oldA heldA)
      · exact numbered.apart a b first second n oldA oldB heldA heldB
  · intro i' other there
    rcases getElem?_move there with ⟨rfl, rfl⟩ | ⟨-, there⟩
    · exact fits
    · exact numbered.fits i' other there
  · intro r mem
    obtain ⟨i', bound, own⟩ := numbered.owned r mem
    exact ⟨i', length.symm ▸ bound, own⟩

/-- A transaction adds a record under the number that it holds. -/
theorem Numbered.log (numbered : s.Numbered b j) (few : b.Room s.stages.length) {i : Nat}
    {stage new : Stage} (here : s.stages[i]? = some stage) {t : Transaction} {lsn : UInt64}
    (holds : stage.holds = some lsn) (free : new.holds = none) (room : new.room ≤ stage.room)
    (id : t.id = b.idAt i) {e : Engine} (next : e.sequence.next = s.engine.sequence.next)
    (transaction : e.nextTransaction = s.engine.nextTransaction)
    (fits : new.Fits (b.idAt i) (ofId (b.idAt i) s.added ++ [t.record lsn s.engine.now.1])) :
    (s.log i new t lsn e).Numbered b j := by
  have length : (s.stages.set i new).length = s.stages.length := List.length_set
  have inside : i < s.stages.length := (List.getElem?_eq_some_iff.mp here).1
  obtain ⟨bound, absent⟩ := numbered.held i stage lsn here holds
  have lsns : (s.log i new t lsn e).added.map Record.lsn = s.added.map Record.lsn ++ [lsn] :=
    List.map_append
  refine ⟨fun fits => next.trans (numbered.next fits), ?_, numbered.later, ?_, ?_, ?_, ?_, ?_, ?_, ?_⟩
  · exact transaction.trans (numbered.transaction.trans (congrArg b.idAt length.symm))
  · have sums := spent_move here new
    have spent := numbered.spent
    simp only [Session.log, Session.move, length]
    omega
  · intro r mem
    rcases List.mem_append.mp mem with old | own
    · exact numbered.below r old
    · rw [List.mem_singleton.mp own]
      exact bound
  · rw [lsns]
    refine List.nodup_append.mpr ⟨numbered.distinct, by simp, ?_⟩
    intro n old m own same
    rw [List.mem_singleton.mp own] at same
    exact absent (same ▸ old)
  · intro i' other n there held
    rcases getElem?_move there with ⟨rfl, rfl⟩ | ⟨elsewhere, there⟩
    · rw [free] at held
      cases held
    · obtain ⟨bound, absent⟩ := numbered.held i' other n there held
      refine ⟨bound, ?_⟩
      rw [lsns, List.mem_append, List.mem_singleton]
      rintro (old | same)
      · exact absent old
      · rw [same] at held
        exact elsewhere (numbered.apart i i' stage other lsn here there holds held)
  · intro a b first second n thereA thereB heldA heldB
    rcases getElem?_move thereA with ⟨rfl, rfl⟩ | ⟨-, oldA⟩
    · rw [free] at heldA
      cases heldA
    · rcases getElem?_move thereB with ⟨rfl, rfl⟩ | ⟨-, oldB⟩
      · rw [free] at heldB
        cases heldB
      · exact numbered.apart a b first second n oldA oldB heldA heldB
  · intro i' other there
    have more := ofId_concat (b.idAt i') s.added (t.record lsn s.engine.now.1)
    have own : (t.record lsn s.engine.now.1).transaction = b.idAt i := id
    rcases getElem?_move there with ⟨rfl, rfl⟩ | ⟨elsewhere, there⟩
    · rw [if_pos own] at more
      exact more ▸ fits
    · have inside' : i' < s.stages.length := (List.getElem?_eq_some_iff.mp there).1
      have apart : b.idAt i ≠ b.idAt i' := fun same =>
        elsewhere (Marks.idAt_inj few inside inside' same)
      rw [own, if_neg apart, List.append_nil] at more
      exact more ▸ numbered.fits i' other there
  · intro r mem
    rcases List.mem_append.mp mem with old | new
    · obtain ⟨i', bound, own⟩ := numbered.owned r old
      exact ⟨i', length.symm ▸ bound, own⟩
    · rw [List.mem_singleton.mp new]
      exact ⟨i, length.symm ▸ inside, id⟩

theorem Numbered.claim (numbered : s.Numbered b j) (few : b.Room (s.stages.length + 1)) :
    Numbered b j { s with
      engine := s.engine.allocateTransaction.2
      stages := s.stages ++ [.claimed s.engine.allocateTransaction.1] } := by
  have id : s.engine.allocateTransaction.1 = b.idAt s.stages.length := numbered.transaction
  refine ⟨numbered.next, ?_, numbered.later, ?_, numbered.below, numbered.distinct, ?_, ?_, ?_, ?_⟩
  · have succ : s.engine.allocateTransaction.2.nextTransaction = b.idAt s.stages.length + 1 :=
      congrArg (· + 1) numbered.transaction
    refine succ.trans ?_
    rw [List.length_append, List.length_singleton, Marks.idAt_succ]
  · have spent := numbered.spent
    simp only [List.map_append, List.map_singleton, List.sum_append, List.sum_singleton,
      List.length_append, List.length_singleton, Stage.room]
    omega
  · intro i stage n there held
    rcases getElem?_concat_cases there with ⟨-, rfl⟩ | there
    · cases held
    · exact numbered.held i stage n there held
  · intro a b first second n thereA thereB heldA heldB
    rcases getElem?_concat_cases thereA with ⟨-, rfl⟩ | thereA
    · cases heldA
    · rcases getElem?_concat_cases thereB with ⟨-, rfl⟩ | thereB
      · cases heldB
      · exact numbered.apart a b first second n thereA thereB heldA heldB
  · intro i stage there
    rcases getElem?_concat_cases there with ⟨rfl, rfl⟩ | there
    · refine ⟨id, List.filter_eq_nil_iff.mpr fun r mem own => ?_⟩
      obtain ⟨i, inside, same⟩ := numbered.owned r mem
      have first := same.symm.trans (eq_of_beq own)
      exact Nat.ne_of_lt inside
        (Marks.idAt_inj few (Nat.lt_succ_of_lt inside) (Nat.lt_succ_self _) first)
    · exact numbered.fits i stage there
  · intro r mem
    obtain ⟨i, inside, own⟩ := numbered.owned r mem
    exact ⟨i, by simp; omega, own⟩

/-- The next number is the one that follows all others. -/
theorem Numbered.fresh (numbered : s.Numbered b j) (few : b.Room s.stages.length) {i : Nat}
    {stage : Stage} (here : s.stages[i]? = some stage) (room : 0 < stage.room) :
    s.engine.allocateLsn.1.toNat = j + 1 := by
  have sums := spent_move here .ended
  have spent := numbered.spent
  have lsns := few.lsns
  have none : Stage.ended.room = 0 := rfl
  have fits : j + 1 < 2 ^ 64 := by omega
  have given : s.engine.allocateLsn.1 = UInt64.ofNat (j + 1) := numbered.next fits
  rw [given, UInt64.toNat_ofNat', Nat.mod_eq_of_lt fits]

theorem Numbered.next_taken (numbered : s.Numbered b j) (fits : j + 1 + 1 < 2 ^ 64) :
    s.engine.allocateLsn.2.sequence.next = UInt64.ofNat (j + 1 + 1) := by
  have succ : s.engine.allocateLsn.2.sequence.next = UInt64.ofNat (j + 1) + 1 :=
    congrArg (· + 1) (numbered.next (Nat.lt_of_succ_lt fits))
  exact succ.trans (UInt64.ofNat_add (j + 1) 1).symm

theorem next_markBatch (sequence : Sequence) (batch : List Record) :
    (sequence.markBatch batch).next = sequence.next := by
  induction batch generalizing sequence with
  | nil => rfl
  | cons r rest ih => exact ih (sequence.markDurable r.lsn)

theorem next_step {σ : Type} (io : Sink σ) (l : Loop σ) (step : Log.Step) :
    (l.step io step).flusher.sequence.next = l.flusher.sequence.next := by
  have move := Loop.moves io l step
  generalize l.step io step = after at move ⊢
  cases move with
  | acknowledge silent holds => exact next_markBatch _ _
  | _ => rfl

theorem numbered_step (numbered : s.Numbered b j) {t : Session} (step : Step s t)
    (few : b.Room t.stages.length) : ∃ j', t.Numbered b j' := by
  cases step with
  | tick => exact ⟨j, numbered.same rfl rfl rfl rfl⟩
  | claim =>
    rw [List.length_append] at few
    exact ⟨j, numbered.claim few⟩
  | @begin i id claimed thread operation page payload =>
    have few : b.Room s.stages.length := by simpa [Session.move] using few
    have fresh := numbered.fresh few claimed (Nat.zero_lt_succ 1)
    obtain ⟨known, none⟩ := numbered.fits i _ claimed
    refine ⟨j + 1, numbered.move claimed (Nat.le_succ j) numbered.next_taken rfl (Nat.le_refl _) ?_
      ⟨known, rfl, none⟩⟩
    intro n holds
    rw [show s.engine.allocateLsn.1 = n from Option.some.inj holds] at fresh
    exact .inr ⟨by omega, by omega⟩
  | @intend i t begun =>
    have few : b.Room s.stages.length := by simpa [Session.log, Session.move] using few
    obtain ⟨known, early, none⟩ := numbered.fits i _ begun
    refine ⟨j, numbered.log few begun rfl ?_ ?_ known rfl rfl ?_⟩
    · rfl
    · exact Nat.le_refl 1
    · exact ⟨known, early, _, early, by rw [none]; rfl⟩
  | @apply i t intended trouble applied =>
    have fits := numbered.fits i _ intended
    exact ⟨j, numbered.move intended (Nat.le_refl j) numbered.next rfl (Nat.le_refl _) nofun fits⟩
  | @abandon i t intended trouble fault failed =>
    exact ⟨j, numbered.move intended (Nat.le_refl j) numbered.next rfl (Nat.le_succ _) nofun
      (numbered.fits i _ intended).inOrder⟩
  | @number i t applied =>
    have few : b.Room s.stages.length := by simpa [Session.move] using few
    have fresh := numbered.fresh few applied (Nat.zero_lt_succ 0)
    obtain ⟨known, early, before, uncommitted, own⟩ := numbered.fits i _ applied
    have mem : before ∈ s.added := by
      have first : before ∈ ofId (b.idAt i) s.added := own ▸ List.mem_singleton_self before
      exact (List.mem_filter.mp first).1
    have below := (numbered.below before mem).2
    have ascending : before.lsn < s.engine.allocateLsn.1 := by
      rw [UInt64.lt_iff_toNat_lt]
      omega
    refine ⟨j + 1, numbered.move applied (Nat.le_succ j) numbered.next_taken rfl (Nat.le_refl _) ?_
      ⟨known, rfl, before, uncommitted, ascending, own⟩⟩
    intro n holds
    rw [show s.engine.allocateLsn.1 = n from Option.some.inj holds] at fresh
    exact .inr ⟨by omega, by omega⟩
  | @commit i t lsn ready =>
    have few : b.Room s.stages.length := by simpa [Session.log, Session.move] using few
    obtain ⟨known, committed, before, uncommitted, ascending, own⟩ := numbered.fits i _ ready
    refine ⟨j, numbered.log few ready rfl ?_ ?_ known rfl rfl ?_⟩
    · rfl
    · exact Nat.zero_le 0
    · exact Or.inr ⟨before, uncommitted, .inr ⟨_, committed, ascending, by rw [own]; rfl⟩⟩
  | wake => exact ⟨j, numbered.same rfl rfl rfl rfl⟩
  | drain running silent => exact ⟨j, numbered.same rfl rfl (next_step _ _ _) rfl⟩
  | count => exact ⟨j, numbered.same rfl rfl rfl rfl⟩
  | tell now component message => exact ⟨j, numbered.same rfl rfl rfl rfl⟩
  | exit asked free => exact ⟨j, numbered.same rfl rfl rfl rfl⟩
  | close alone => exact ⟨j, numbered.same rfl rfl (by simp) (by simp)⟩
  | nothing closing joining gone none => exact ⟨j, numbered.same rfl rfl rfl rfl⟩
  | «open» closing joining gone opened => exact ⟨j, numbered.same rfl rfl rfl rfl⟩
  | refuse closing joining gone refused => exact ⟨j, numbered.same rfl rfl rfl rfl⟩
  | late closing writing which => exact ⟨j, numbered.same rfl rfl (next_step _ _ _) rfl⟩
  | @leave c closing drained =>
    have rest : (farewell s.engine c.stopping).sequence = s.engine.sequence ∧
        (farewell s.engine c.stopping).nextTransaction = s.engine.nextTransaction := by
      unfold farewell
      split <;> exact ⟨rfl, rfl⟩
    exact ⟨j, numbered.same rfl rfl (congrArg _ rest.1) rest.2⟩

theorem stages_step {t : Session} (step : Step s t) : s.stages.length ≤ t.stages.length := by
  cases step with
  | claim => exact List.length_append ▸ Nat.le_add_right _ _
  | begin | intend | apply | abandon | number | commit => exact Nat.le_of_eq List.length_set.symm
  | _ => exact Nat.le_refl _

theorem numbered_runs_from (numbered : s.Numbered b j) {t : Session} (run : Runs s t)
    (few : b.Room t.stages.length) : ∃ j', t.Numbered b j' := by
  induction run with
  | here => exact ⟨j, numbered⟩
  | more run step ih =>
    obtain ⟨j', numbered⟩ := ih (few.mono (stages_step step))
    exact numbered_step numbered step few

theorem numbered_runs (numbered : s.Numbered ⟨0, 0⟩ j) {t : Session} (run : Runs s t)
    (few : t.stages.length < 2 ^ 63) : ∃ j', t.Numbered ⟨0, 0⟩ j' :=
  numbered_runs_from numbered run ⟨by simp; omega, by simp; omega⟩

theorem numbered_start_from {e : Engine}
    (lsn : b.lsn + 1 < 2 ^ 64 → e.sequence.next = UInt64.ofNat (b.lsn + 1))
    (transaction : e.nextTransaction = b.idAt 0) : (start e).Numbered b b.lsn := by
  have none : ∀ (i : Nat) (stage : Stage), (start e).stages[i]? ≠ some stage := nofun
  exact {
    next := lsn
    transaction := transaction
    later := Nat.le_refl _
    spent := Nat.le_refl _
    below := nofun
    distinct := List.nodup_nil
    held := fun i stage _ there => absurd there (none i stage)
    apart := fun i _ stage _ _ there => absurd there (none i stage)
    fits := fun i stage there => absurd there (none i stage)
    owned := nofun }

theorem numbered_start {e : Engine} (lsn : e.sequence.next = 1) (transaction : e.nextTransaction = 1) :
    (start e).Numbered ⟨0, 0⟩ 0 :=
  numbered_start_from (fun _ => lsn) transaction

/-- The records of one transaction are in order in every beginning of what was added. -/
theorem Numbered.inOrder (numbered : s.Numbered b j) (m : Nat) (id : UInt64) :
    InOrder (ofId id (s.added.take m)) := by
  have part : ofId id (s.added.take m) <+: ofId id s.added := (List.take_prefix m s.added).filter _
  refine InOrder.front ?_ part
  by_cases known : ∃ r ∈ s.added, r.transaction = id
  · obtain ⟨r, mem, rfl⟩ := known
    obtain ⟨i, inside, own⟩ := numbered.owned r mem
    exact own ▸ (numbered.fits i _ (List.getElem?_eq_getElem inside)).inOrder
  · refine .inl (List.filter_eq_nil_iff.mpr fun r mem own => ?_)
    exact known ⟨r, mem, eq_of_beq own⟩

end Session

end PageJournal
