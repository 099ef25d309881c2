import PageJournal.Proofs.Checkpoint.Busy
import PageJournal.Proofs.Lists

/-! What the number in a checkpoint record covers. A cycle looks once which pages are dirty, flushes
those, and only then asks for the last sequence number handed out, while transactions go on. Whatever was
written before it looked has been flushed when the record is logged. What was written later may have a
number that the record names and may not have been flushed; its page is dirty then, and the next cycle
finds it. -/
namespace PageJournal

open Checkpoint (Checkpointer)

namespace PageStore

theorem dirty_fetch (store : PageStore) (page : PageId) : (store.fetch page).2.dirty = store.dirty := by
  obtain ⟨cache, counters, frame⟩ := store.fetch_frame page
  rw [frame]

/-- A page that was written is dirty, and no page is clean because of it. -/
theorem dirty_write (store : PageStore) (page : PageId) (payload : Bytes) (trouble : Trouble) :
    store.dirty ⊆ (store.write page payload trouble).2.dirty ∧
      ((store.write page payload trouble).1 = .ok () →
        page ∈ (store.write page payload trouble).2.dirty) := by
  rcases store.write_cases page payload trouble with ⟨fault, refused⟩ | ⟨cause, -, failed⟩ | ⟨-, done⟩
  · rw [refused]
    exact ⟨List.Subset.refl _, nofun⟩
  · rw [failed]
    exact ⟨List.Subset.refl _, nofun⟩
  · rw [done]
    exact ⟨subset_insertPage _ _, fun _ => mem_insertPage.mpr (.inl rfl)⟩

/-- Only the page that was flushed is clean now. -/
theorem dirty_flush (store : PageStore) (page : PageId) (trouble : Trouble) {q : PageId}
    (dirty : q ∈ store.dirty) : q ∈ (store.flush page trouble).2.dirty ∨
      q = page ∧ (store.flush page trouble).1.isOk := by
  rcases store.flush_cases page trouble with ⟨fault, refused⟩ | ⟨bytes, cause, -, failed⟩ | ⟨bytes, -, done⟩
  · rw [refused]
    exact .inl dirty
  · rw [failed]
    exact .inl dirty
  · rw [done]
    by_cases own : q = page
    · exact .inr ⟨own, rfl⟩
    · exact .inl (List.mem_filter.mpr ⟨dirty, bne_iff_ne.mpr own⟩)

end PageStore

namespace Busy

/-- A page was written and has not been flushed since. -/
def Unflushed (page : PageId) (history : List Event) : Prop :=
  ∃ a i b, history = a ++ .wrote i page :: b ∧ .flushed page ∉ b

theorem Unflushed.of_append {page : PageId} {history more : List Event}
    (unflushed : Unflushed page (history ++ more)) :
    Unflushed page history ∧ .flushed page ∉ more ∨ ∃ i, .wrote i page ∈ more := by
  obtain ⟨a, i, b, split, clean⟩ := unflushed
  rcases List.append_eq_append_iff.mp split with ⟨c, -, later⟩ | ⟨c, earlier, rest⟩
  · exact .inr ⟨i, later ▸ List.mem_append_right c List.mem_cons_self⟩
  · cases c with
    | nil => exact .inr ⟨i, (show Event.wrote i page :: b = more from rest) ▸ List.mem_cons_self⟩
    | cons first c =>
      rw [List.cons_append] at rest
      obtain ⟨rfl, rfl⟩ := List.cons.inj rest
      rw [List.mem_append, not_or] at clean
      exact .inl ⟨⟨a, i, c, earlier, clean.1⟩, clean.2⟩

/-- What an event tells, if another happened before it. -/
structure Before (a b : Event) : Prop where
  ascends : ∀ x y, a.number? = some x → b.number? = some y → x ≤ y
  fresh : ∀ x i y, a.number? = some x → b = .numbered i y → x < y
  /-- A transaction has written before it is numbered. -/
  done : ∀ i x page, a = .numbered i x → b ≠ .wrote i page

/-- The pages that a cycle still has to flush, or else has failed. -/
def due : Round → List PageId
  | .collecting dirty => dirty
  | .flushing _ left _ failed => left ++ failed
  | .logging _ _ => []

/-- The cycle has asked for the last number, and no page has been flushed since then. -/
def Asked (last : UInt64) (since : List Event) : Prop :=
  ∃ during after, since = during ++ .asked last :: after ∧ ∀ page, .flushed page ∉ after

/-- What was written before the cycle looked is flushed by now, or is due. -/
def Follows (r : Round) (history : List Event) : Prop :=
  ∃ before low since, history = before ++ .collected low :: since ∧
    (∀ page, Unflushed page before → .flushed page ∉ since → page ∈ due r) ∧
    ∀ count record, r = .logging count record → Asked record.watermark since

theorem Follows.later {r r' : Round} {history : List Event} (follows : Follows r history)
    (more : List Event) (kept : ∀ page ∈ due r, .flushed page ∉ more → page ∈ due r')
    (asked : ∀ count record, r' = .logging count record →
      r = r' ∧ (∀ page, .flushed page ∉ more) ∨ more = [.asked record.watermark]) :
    Follows r' (history ++ more) := by
  obtain ⟨before, low, since, rfl, flushed, known⟩ := follows
  refine ⟨before, low, since ++ more, by simp, fun page unflushed absent => ?_, fun count record same => ?_⟩
  · rw [List.mem_append, not_or] at absent
    exact kept page (flushed page unflushed absent.1) absent.2
  · rcases asked count record same with ⟨rfl, none⟩ | now
    · obtain ⟨during, after, rfl, clean⟩ := known count record same
      refine ⟨during, after ++ more, by simp, fun page mem => ?_⟩
      rcases List.mem_append.mp mem with old | new
      · exact clean page old
      · exact none page new
    · exact ⟨since, [], by rw [now], nofun⟩

/-- So far `n` is the next number. Every other was handed out before, and a page is dirty unless it was
flushed after the last write. -/
structure Sound (n : Nat) (s : Busy) : Prop where
  next : s.engine.sequence.next.toNat = n
  under : ∀ a ∈ s.history, ∀ x, a.number? = some x → x.toNat < n
  ordered : s.history.Pairwise Before
  done : ∀ i x, .numbered i x ∈ s.history → ∃ stage, s.stages[i]? = some stage ∧ stage.room = 0
  dirty : ∀ page, Unflushed page s.history → page ∈ s.engine.store.dirty
  round : ∀ r, s.round = some r → Follows r s.history

variable {n m : Nat} {s t : Busy}

theorem sound_start (e : Engine) : (start e).Sound e.sequence.next.toNat where
  next := rfl
  under := nofun
  ordered := .nil
  done := nofun
  dirty page unflushed := by
    obtain ⟨a, i, b, split, -⟩ := unflushed
    simp [start] at split
  round := nofun

theorem Sound.numbers (sound : s.Sound n) (le : n ≤ m) {more : List Event} (few : more.length ≤ 1)
    (high : ∀ b ∈ more, ∀ y, b.number? = some y → n ≤ y.toNat + 1 ∧ y.toNat < m)
    (fresh : ∀ i y, .numbered i y ∈ more → n ≤ y.toNat)
    (wrote : ∀ i page, .wrote i page ∈ more → ∀ x, .numbered i x ∉ s.history) :
    (∀ a ∈ s.history ++ more, ∀ x, a.number? = some x → x.toNat < m) ∧
      (s.history ++ more).Pairwise Before := by
  constructor
  · intro a mem x known
    rcases List.mem_append.mp mem with old | new
    · exact Nat.lt_of_lt_of_le (sound.under a old x known) le
    · exact (high a new x known).2
  · have own : more.Pairwise Before := by
      match more, few with
      | [], _ => exact .nil
      | [b], _ => exact List.pairwise_singleton Before b
    refine List.pairwise_append.mpr ⟨sound.ordered, own, fun a old b new => ⟨?_, ?_, ?_⟩⟩
    · intro x y known told
      have under := sound.under a old x known
      have above := (high b new y told).1
      exact UInt64.le_iff_toNat_le.mpr (by omega)
    · rintro x i y known rfl
      exact UInt64.lt_iff_toNat_lt.mpr (Nat.lt_of_lt_of_le (sound.under a old x known) (fresh i y new))
    · rintro i x page rfl rfl
      exact wrote i page new x old

theorem Sound.unflushed (sound : s.Sound n) {more : List Event} {dirty : List PageId}
    (kept : ∀ page ∈ s.engine.store.dirty, .flushed page ∉ more → page ∈ dirty)
    (wrote : ∀ i page, .wrote i page ∈ more → page ∈ dirty) (page : PageId)
    (unflushed : Unflushed page (s.history ++ more)) : page ∈ dirty := by
  rcases unflushed.of_append with ⟨old, absent⟩ | ⟨i, new⟩
  · exact kept page (sound.dirty page old) absent
  · exact wrote i page new

theorem Sound.move (sound : s.Sound n) {i : Nat} {stage : Stage} (here : s.stages[i]? = some stage)
    (new : Stage) (e : Engine) (more : List Event) (room : new.room ≤ stage.room) (le : n ≤ m)
    (next : e.sequence.next.toNat = m) (dirty : s.engine.store.dirty ⊆ e.store.dirty)
    (few : more.length ≤ 1)
    (wrote : ∀ j page, .wrote j page ∈ more → j = i ∧ stage.room ≠ 0 ∧ page ∈ e.store.dirty)
    (numbered : ∀ j x, .numbered j x ∈ more → j = i ∧ new.room = 0 ∧ x.toNat = n ∧ n < m)
    (quiet : ∀ b ∈ more, (∃ j page, b = .wrote j page) ∨ ∃ j x, b = .numbered j x) :
    (s.move i new e more).Sound m := by
  have inside := (List.getElem?_eq_some_iff.mp here).1
  obtain ⟨under, ordered⟩ := sound.numbers le few
    (fun b mem y told => by
      rcases quiet b mem with ⟨j, page, rfl⟩ | ⟨j, x, rfl⟩
      · cases told
      · obtain ⟨-, -, same, lt⟩ := numbered j x mem
        cases told
        omega)
    (fun j y mem => Nat.le_of_eq (numbered j y mem).2.2.1.symm)
    (fun j page mem x old => by
      obtain ⟨rfl, open', -⟩ := wrote j page mem
      obtain ⟨stage', there, past⟩ := sound.done j x old
      cases here.symm.trans there
      exact open' past)
  refine ⟨next, under, ordered, fun j x mem => ?_, ?_, fun r under => ?_⟩
  · have past : j = i → new.room = 0 →
        ∃ stage, (s.stages.set i new)[j]? = some stage ∧ stage.room = 0 := by
      rintro rfl zero
      exact ⟨new, List.getElem?_set_self inside, zero⟩
    rcases List.mem_append.mp mem with old | now
    · obtain ⟨stage', there, zero⟩ := sound.done j x old
      by_cases same : j = i
      · subst same
        cases here.symm.trans there
        exact past rfl (Nat.le_zero.mp (zero ▸ room))
      · exact ⟨stage', (List.getElem?_set_ne (Ne.symm same)).trans there, zero⟩
    · exact past (numbered j x now).1 (numbered j x now).2.1
  · exact sound.unflushed (fun page mem _ => dirty mem) fun j page mem => (wrote j page mem).2.2
  · refine (sound.round r under).later more (fun page mem _ => mem) fun _ _ _ => .inl ⟨rfl, fun page mem => ?_⟩
    rcases quiet _ mem with ⟨j, q, other⟩ | ⟨j, x, other⟩
    all_goals cases other

theorem Sound.become (sound : s.Sound n) {round : Option Round} {c : Checkpointer}
    (sequence : c.sequence = s.engine.sequence) {more : List Event} (few : more.length ≤ 1)
    (dirty : ∀ page ∈ s.engine.store.dirty, .flushed page ∉ more → page ∈ c.store.dirty)
    (told : ∀ b ∈ more, ∀ y, b.number? = some y → n ≤ y.toNat + 1 ∧ y.toNat < n)
    (cycle : ∀ b ∈ more, ∀ i page x, b ≠ .wrote i page ∧ b ≠ .numbered i x)
    (follows : ∀ r, round = some r → Follows r (s.history ++ more)) :
    (s.become round c more).Sound n := by
  have wrote : ∀ i page, .wrote i page ∉ more := fun i page mem => (cycle _ mem i page 0).1 rfl
  have numbered : ∀ i x, .numbered i x ∉ more := fun i x mem => (cycle _ mem i 0 x).2 rfl
  obtain ⟨under, ordered⟩ := sound.numbers (Nat.le_refl n) few told
    (fun i y mem => absurd mem (numbered i y)) (fun i page mem => absurd mem (wrote i page))
  refine ⟨?_, under, ordered, fun i x mem => ?_, ?_, follows⟩
  · exact (congrArg (fun q => q.next.toNat) sequence).trans sound.next
  · rcases List.mem_append.mp mem with old | now
    · exact sound.done i x old
    · exact absurd now (numbered i x)
  · exact sound.unflushed dirty fun i page mem => absurd mem (wrote i page)

theorem Sound.allocated (sound : s.Sound n) (room : n + 1 < 2 ^ 64) :
    (s.engine.sequence.next + 1).toNat = n + 1 := by
  have next := sound.next
  rw [UInt64.toNat_add, UInt64.toNat_one]
  omega

theorem Sound.current (sound : s.Sound n) (positive : 0 < n) :
    n ≤ s.engine.sequence.current.toNat + 1 ∧ s.engine.sequence.current.toNat < n := by
  have next := sound.next
  have one : (1 : UInt64) ≤ s.engine.sequence.next := by
    rw [UInt64.le_iff_toNat_le, next]
    exact positive
  have current : s.engine.sequence.current.toNat = n - 1 := by
    rw [Log.Sequence.current, UInt64.toNat_sub_of_le _ _ one, next, UInt64.toNat_one]
  omega

theorem Sound.begin (sound : s.Sound n) (room : n + 1 < 2 ^ 64) {e : Engine} (stage : Stage)
    (next : e.sequence.next = s.engine.sequence.next + 1) (store : e.store = s.engine.store) :
    Sound (n + 1) { s with engine := e, stages := s.stages ++ [stage] } where
  next := by rw [next, sound.allocated room]
  under a mem x known := Nat.lt_succ_of_lt (sound.under a mem x known)
  ordered := sound.ordered
  done i x mem := by
    obtain ⟨old, there, past⟩ := sound.done i x mem
    have inside := (List.getElem?_eq_some_iff.mp there).1
    exact ⟨old, (List.getElem?_append_left inside).trans there, past⟩
  dirty := store ▸ sound.dirty
  round := sound.round

/-- A transaction goes on and nothing of interest happens. -/
theorem Sound.pass (sound : s.Sound n) {i : Nat} {stage : Stage} (here : s.stages[i]? = some stage)
    (new : Stage) (room : new.room ≤ stage.room) {e : Engine}
    (next : e.sequence.next = s.engine.sequence.next) (dirty : s.engine.store.dirty ⊆ e.store.dirty) :
    (s.move i new e []).Sound n :=
  sound.move here new e [] room (Nat.le_refl n) (next ▸ sound.next) dirty (Nat.zero_le 1) nofun nofun nofun

theorem dirty_apply (e : Engine) (x : Transaction) (trouble : Trouble) :
    e.store.dirty ⊆ (e.apply x trouble).2.store.dirty ∧
      ((e.apply x trouble).1 = .ok () → x.operation.isWrite →
        x.page ∈ (e.apply x trouble).2.store.dirty) := by
  by_cases writes : x.operation.isWrite
  · have applied : e.apply x trouble = e.onStore (·.write x.page x.payload trouble) := by
      unfold Engine.apply
      simp only [writes, if_true]
    rw [applied]
    obtain ⟨kept, own⟩ := PageStore.dirty_write e.store x.page x.payload trouble
    exact ⟨kept, fun succeeded _ => own succeeded⟩
  · refine ⟨?_, fun _ write => absurd write writes⟩
    unfold Engine.apply
    simp only [writes, Bool.false_eq_true, if_false]
    exact (PageStore.dirty_fetch e.store x.page).symm ▸ List.Subset.refl e.store.dirty

theorem Sound.applied (sound : s.Sound n) {i : Nat} {x : Transaction}
    (here : s.stages[i]? = some (.intended x)) (trouble : Trouble) :
    (s.applied i x trouble).Sound n := by
  have kept := dirty_apply s.engine x trouble
  have same : (s.engine.apply x trouble).2.sequence = s.engine.sequence := rfl
  unfold Busy.applied
  rcases applied : s.engine.apply x trouble with ⟨fault | _, e⟩
  all_goals rw [applied] at kept same
  · exact sound.pass here .ended (Nat.zero_le _) (congrArg _ same) kept.1
  · dsimp only
    split
    · next writes =>
      have wrote : ∀ b, b ∈ [Event.wrote i x.page] → b = .wrote i x.page := fun _ => List.mem_singleton.mp
      refine sound.move here (.applied x) e [.wrote i x.page] (Nat.le_refl _) (Nat.le_refl n)
        (same ▸ sound.next) kept.1 (Nat.le_refl 1) ?_ (fun j y mem => nomatch wrote _ mem)
        fun b mem => .inl ⟨i, x.page, wrote b mem⟩
      intro j page mem
      cases wrote _ mem
      exact ⟨rfl, Nat.one_ne_zero, kept.2 rfl writes⟩
    · exact sound.pass here (.applied x) (Nat.le_refl _) (congrArg _ same) kept.1

theorem Sound.numbered (sound : s.Sound n) {i : Nat} {x : Transaction}
    (here : s.stages[i]? = some (.applied x)) (room : n + 1 < 2 ^ 64) :
    (s.move i (.numbered x.commit s.engine.allocateLsn.1) s.engine.allocateLsn.2
      [.numbered i s.engine.allocateLsn.1]).Sound (n + 1) := by
  have event : ∀ b, b ∈ [Event.numbered i s.engine.allocateLsn.1] →
      b = .numbered i s.engine.allocateLsn.1 := fun _ => List.mem_singleton.mp
  refine sound.move here (.numbered x.commit s.engine.allocateLsn.1) s.engine.allocateLsn.2
    [.numbered i s.engine.allocateLsn.1] (Nat.zero_le _) (Nat.le_succ n) (sound.allocated room)
    (List.Subset.refl _) (Nat.le_refl 1) (fun j page mem => nomatch event _ mem) ?_
    fun b mem => .inr ⟨i, _, event b mem⟩
  intro j y mem
  cases event _ mem
  exact ⟨rfl, rfl, sound.next, Nat.lt_succ_self n⟩

/-- The cycle goes on and nothing of interest happens. -/
theorem Sound.proceed (sound : s.Sound n) {round : Option Round} {c : Checkpointer}
    (sequence : c.sequence = s.engine.sequence) (dirty : c.store.dirty = s.engine.store.dirty)
    (follows : ∀ r, round = some r → Follows r s.history) : (s.become round c []).Sound n :=
  sound.become sequence (Nat.zero_le 1) (fun _ mem _ => dirty ▸ mem) nofun nofun
    fun r known => (List.append_nil s.history).symm ▸ follows r known

theorem Sound.tell (sound : s.Sound n) (positive : 0 < n) (round : Option Round) (c : Checkpointer)
    (b : Event) (sequence : c.sequence = s.engine.sequence)
    (dirty : ∀ page ∈ s.engine.store.dirty, b ≠ .flushed page → page ∈ c.store.dirty)
    (told : ∀ y, b.number? = some y → y = s.engine.sequence.current)
    (cycle : ∀ i page x, b ≠ .wrote i page ∧ b ≠ .numbered i x)
    (follows : ∀ r, round = some r → Follows r (s.history ++ [b])) : (s.become round c [b]).Sound n := by
  have event : ∀ a, a ∈ [b] → a = b := fun _ => List.mem_singleton.mp
  refine sound.become sequence (Nat.le_refl 1) (fun page mem absent => dirty page mem ?_)
    (fun a mem y known => ?_) (fun a mem => event a mem ▸ cycle) follows
  · rintro rfl
    exact absent (List.mem_singleton_self _)
  · rw [event a mem] at known
    rw [told y known]
    exact sound.current positive

theorem mem_erase_append (page : PageId) {q : PageId} {left failed : List PageId} (mem : q ∈ left ++ failed) :
    q = page ∨ q ∈ left.erase page ++ failed := by
  by_cases same : q = page
  · exact .inl same
  · rcases List.mem_append.mp mem with due | past
    · exact .inr (List.mem_append_left _ ((List.mem_erase_of_ne same).mpr due))
    · exact .inr (List.mem_append_right _ past)

/-- A page that fails stays due. -/
theorem mem_failed {page q : PageId} {left failed : List PageId} (mem : q ∈ left ++ failed) :
    q ∈ left.erase page ++ (failed ++ [page]) := by
  rw [← List.append_assoc]
  rcases mem_erase_append page mem with rfl | rest
  · exact List.mem_append_right _ (List.mem_singleton_self q)
  · exact List.mem_append_left _ rest

theorem Sound.flushed (sound : s.Sound n) (positive : 0 < n) {dirtyPages count : Nat}
    {left failed : List PageId} (round : s.round = some (.flushing dirtyPages left count failed))
    (page : PageId) (trouble : Trouble) :
    (s.flushed page trouble dirtyPages (left.erase page) count failed).Sound n := by
  have kept := fun q => PageStore.dirty_flush s.engine.store page trouble (q := q)
  have follows := sound.round _ round
  unfold Busy.flushed
  rcases flush : s.engine.store.flush page trouble with ⟨fault | written, store⟩
  all_goals
    rw [flush] at kept
    dsimp only
  · refine sound.become rfl (Nat.zero_le 1) (fun q mem _ => ?_) nofun nofun fun r same => ?_
    · exact (kept q mem).resolve_right fun ⟨_, succeeded⟩ => nomatch succeeded
    · cases same
      exact follows.later [] (fun q mem _ => mem_failed mem) nofun
  · refine sound.tell positive _ _ _ rfl (fun q mem other => ?_) nofun (fun _ _ _ => ⟨nofun, nofun⟩)
      fun r same => ?_
    · exact (kept q mem).resolve_right fun ⟨own, _⟩ => other (own ▸ rfl)
    · cases same
      refine follows.later _ (fun q mem absent => (mem_erase_append page mem).resolve_left ?_) nofun
      rintro rfl
      exact absent (List.mem_singleton_self _)

theorem Sound.collect (sound : s.Sound n) (positive : 0 < n) :
    (s.become (some (.collecting s.engine.store.dirty)) (s.engine.checkpointer.enter .collecting)
      [.collected s.engine.sequence.current]).Sound n := by
  refine sound.tell positive _ _ _ rfl (fun page mem _ => mem) (fun y known => ?_)
    (fun _ _ _ => ⟨nofun, nofun⟩) fun r same => ?_
  · exact (Option.some.inj known).symm
  · cases same
    exact ⟨s.history, _, [], rfl, fun page unflushed _ => sound.dirty page unflushed, nofun⟩

theorem Sound.list (sound : s.Sound n) {dirty : List PageId}
    (round : s.round = some (.collecting dirty)) (ids : List PageId) :
    (s.become (some (.flushing dirty.length (ids.foldl (fun pages page => insertPage page pages) dirty)
      0 [])) (s.engine.checkpointer.enter .flushing) []).Sound n := by
  refine sound.proceed rfl rfl fun r same => ?_
  cases same
  refine List.append_nil s.history ▸ (sound.round _ round).later [] (fun page mem _ => ?_) nofun
  exact List.mem_append_left _ (Checkpointer.subset_foldl_insertPage _ _ mem)

theorem Sound.miss (sound : s.Sound n) {dirtyPages count : Nat} {left failed : List PageId}
    (round : s.round = some (.flushing dirtyPages left count failed)) (page : PageId) :
    (s.become (some (.flushing dirtyPages (left.erase page) count (failed ++ [page])))
      s.engine.checkpointer []).Sound n := by
  refine sound.proceed rfl rfl fun r same => ?_
  cases same
  exact List.append_nil s.history ▸
    (sound.round _ round).later [] (fun q mem _ => mem_failed mem) nofun

theorem Sound.ask (sound : s.Sound n) (positive : 0 < n) {dirtyPages count : Nat}
    (round : s.round = some (.flushing dirtyPages [] count [])) (now : UInt64) (thread : UInt32) :
    (s.become (some (.logging count
        ⟨now, thread, UInt64.ofNat dirtyPages, s.engine.sequence.current⟩))
      (s.engine.checkpointer.enter .logging) [.asked s.engine.sequence.current]).Sound n := by
  refine sound.tell positive _ _ _ rfl (fun page mem _ => mem) (fun y known => ?_)
    (fun _ _ _ => ⟨nofun, nofun⟩) fun r same => ?_
  · exact (Option.some.inj known).symm
  · cases same
    refine (sound.round _ round).later _ nofun fun count record same => .inr ?_
    cases same
    rfl

theorem Sound.leave (sound : s.Sound n) {c : Checkpointer} (sequence : c.sequence = s.engine.sequence)
    (dirty : c.store.dirty = s.engine.store.dirty) : (s.become none c []).Sound n :=
  sound.proceed sequence dirty fun _ known => nomatch known

theorem Sound.appended (sound : s.Sound n) (positive : 0 < n) (now : UInt64) (count : Nat)
    (record : Checkpoint.Record) : (s.appended now count record).Sound n := by
  unfold Busy.appended
  dsimp only
  split
  · exact sound.leave rfl rfl
  · exact sound.tell positive _ _ _ rfl (fun page mem _ => mem) nofun (fun _ _ _ => ⟨nofun, nofun⟩) nofun

theorem Sound.giveUp (sound : s.Sound n) (now : UInt64) (count : Nat) (failed : List PageId) :
    (s.become none (Checkpointer.giveUp now count failed
      (failed.foldl (fun c _ => c.count .errors) s.engine.checkpointer)).2 []).Sound n := by
  have counted : ∀ (pages : List PageId) (c : Checkpointer),
      (pages.foldl (fun c _ => c.count .errors) c).sequence = c.sequence ∧
        (pages.foldl (fun c _ => c.count .errors) c).store.dirty = c.store.dirty := by
    intro pages
    induction pages with
    | nil => exact fun _ => ⟨rfl, rfl⟩
    | cons _ rest ih => exact fun c => ih (c.count .errors)
  obtain ⟨sequence, dirty⟩ := counted failed s.engine.checkpointer
  exact sound.leave sequence dirty

theorem sound_step (sound : s.Sound n) (positive : 0 < n) {turn : Turn}
    (stepped : s.step turn = some t) (room : n + turn.takes < 2 ^ 64) : t.Sound (n + turn.takes) := by
  cases turn with
  | begin thread operation page payload =>
    cases stepped
    exact sound.begin room _ rfl rfl
  | intend i =>
    simp only [step] at stepped
    split at stepped
    · next x here =>
      cases stepped
      exact sound.pass here (.intended x) (Nat.le_refl _) rfl (List.Subset.refl _)
    · cases stepped
  | apply i trouble =>
    simp only [step] at stepped
    split at stepped
    · next here =>
      cases stepped
      exact sound.applied here trouble
    · cases stepped
  | number i =>
    simp only [step] at stepped
    split at stepped
    · next here =>
      cases stepped
      exact sound.numbered here room
    · cases stepped
  | commit i =>
    simp only [step] at stepped
    split at stepped
    · next here =>
      cases stepped
      exact sound.pass here .ended (Nat.le_refl _) rfl (List.Subset.refl _)
    · cases stepped
  | collect =>
    simp only [step] at stepped
    split at stepped
    · cases stepped
      exact sound.collect positive
    · cases stepped
  | list =>
    simp only [step] at stepped
    split at stepped
    · next dirty round =>
      cases stepped
      exact sound.list round s.engine.store.cache.ids
    · cases stepped
  | flush page trouble =>
    simp only [step] at stepped
    split at stepped
    · next round =>
      split at stepped
      · cases stepped
        exact sound.flushed positive round page trouble
      · cases stepped
    · cases stepped
  | miss page =>
    simp only [step] at stepped
    split at stepped
    · next round =>
      split at stepped
      · cases stepped
        exact sound.miss round page
      · cases stepped
    · cases stepped
  | ask now thread =>
    simp only [step] at stepped
    split at stepped
    · next round =>
      cases stepped
      exact sound.ask positive round now thread
    · cases stepped
  | append now =>
    simp only [step] at stepped
    split at stepped
    · next round =>
      cases stepped
      exact sound.appended positive now _ _
    · cases stepped
  | giveUp now =>
    simp only [step] at stepped
    split at stepped
    · cases stepped
      exact sound.giveUp now _ _
    · cases stepped
  | quit =>
    simp only [step] at stepped
    split at stepped
    · cases stepped
      exact sound.leave rfl rfl
    · cases stepped

theorem sound_run {turns : List Turn} (sound : s.Sound n) (positive : 0 < n)
    (ran : s.run turns = some t) (room : n + (turns.map Turn.takes).sum < 2 ^ 64) :
    t.Sound (n + (turns.map Turn.takes).sum) := by
  induction turns generalizing s n with
  | nil =>
    cases ran
    exact sound
  | cons turn rest ih =>
    rw [List.map_cons, List.sum_cons, ← Nat.add_assoc] at room ⊢
    rw [run, List.foldlM_cons] at ran
    obtain ⟨next, stepped, later⟩ := Option.bind_eq_some_iff.mp ran
    exact ih (sound_step sound positive stepped (by omega)) (by omega) later room

/-- What happened before an event, and what after it, is ordered with it. -/
theorem ordered_middle {a b : List Event} {x : Event} (ordered : (a ++ x :: b).Pairwise Before) :
    (∀ y ∈ a, Before y x) ∧ ∀ y ∈ b, Before x y := by
  obtain ⟨-, behind, across⟩ := List.pairwise_append.mp ordered
  exact ⟨fun y mem => across y mem x List.mem_cons_self, (List.pairwise_cons.mp behind).1⟩

/-- An event that tells of a number divides the numbers. -/
theorem numbered_le_iff {a b : List Event} {x : Event} (ordered : (a ++ x :: b).Pairwise Before)
    {last : UInt64} (told : x.number? = some last) (other : ∀ i lsn, x ≠ .numbered i lsn) {i : Nat}
    {lsn : UInt64} (given : .numbered i lsn ∈ a ++ x :: b) : lsn ≤ last ↔ .numbered i lsn ∈ a := by
  obtain ⟨earlier, later⟩ := ordered_middle ordered
  constructor
  · intro below
    rcases List.mem_append.mp given with mem | mem
    · exact mem
    · rcases List.mem_cons.mp mem with same | mem
      · exact absurd same.symm (other i lsn)
      · exact absurd ((later _ mem).fresh last i lsn told rfl) (UInt64.not_lt.mpr below)
  · exact fun mem => (earlier _ mem).ascends lsn last rfl told

/-- The record that was logged is the one that the cycle had made. -/
theorem appended_logged {now : UInt64} {record : Checkpoint.Record}
    (appended : s.step (.append now) = some t) (logged : t.history = s.history ++ [.logged record]) :
    (∃ count, s.round = some (.logging count record)) ∧
      t.engine.store.dirty = s.engine.store.dirty := by
  simp only [step] at appended
  split at appended
  · next count made round =>
    cases appended
    unfold Busy.appended at logged ⊢
    dsimp only at logged ⊢
    split at logged
    · cases List.append_cancel_left logged
    · cases List.append_cancel_left logged
      exact ⟨⟨count, round⟩, rfl⟩
  · cases appended

/-- The watermark of a record is the last number that was handed out when the cycle asked for it, behind
its last flush. What was written before the cycle looked which pages are dirty has been flushed when the
record is logged, among it all that has a number up to the last one of that moment. What was written later
has been flushed, or its page is dirty and the next cycle collects it. -/
theorem watermark_covers {e : Engine} {turns : List Turn} {now : UInt64} {record : Checkpoint.Record}
    (positive : 0 < e.sequence.next.toNat)
    (room : e.sequence.next.toNat + (turns.map Turn.takes).sum < 2 ^ 64)
    (ran : (start e).run turns = some s) (appended : s.step (.append now) = some t)
    (logged : t.history = s.history ++ [.logged record]) :
    ∃ before low during after,
      s.history = before ++ .collected low :: (during ++ .asked record.watermark :: after) ∧
      low ≤ record.watermark ∧ (∀ page, .flushed page ∉ after) ∧
      (∀ i lsn, .numbered i lsn ∈ s.history → (lsn ≤ low ↔ .numbered i lsn ∈ before) ∧
        (lsn ≤ record.watermark ↔ .numbered i lsn ∈ before ++ during)) ∧
      ∀ a i page b, s.history = a ++ .wrote i page :: b →
        (a.length < before.length → .flushed page ∈ b) ∧
        (∀ lsn ≤ low, .numbered i lsn ∈ s.history → .flushed page ∈ b) ∧
        (.flushed page ∈ b ∨
          page ∈ t.engine.store.dirty ∧ page ∈ t.engine.checkpointer.collect.1) := by
  have sound := sound_run (sound_start e) positive ran room
  obtain ⟨⟨count, round⟩, same⟩ := appended_logged appended logged
  obtain ⟨before, low, since, split, flushed, known⟩ := sound.round _ round
  obtain ⟨during, after, rfl, last⟩ := known count record rfl
  have ordered := sound.ordered
  have dirty := sound.dirty
  have regrouped : before ++ .collected low :: (during ++ .asked record.watermark :: after) =
    (before ++ .collected low :: during) ++ .asked record.watermark :: after := by simp
  rw [split] at ordered dirty ⊢
  have divided := regrouped ▸ ordered
  have covered : ∀ a i page b,
      before ++ .collected low :: (during ++ .asked record.watermark :: after) = a ++ .wrote i page :: b →
      a.length < before.length → .flushed page ∈ b := by
    intro a i page b here early
    obtain ⟨c, front, rfl⟩ := exists_split_front here early
    by_contra absent
    rw [List.mem_append, List.mem_cons, not_or, not_or] at absent
    exact List.not_mem_nil (flushed page ⟨a, i, c, front, absent.1⟩ absent.2.2)
  refine ⟨before, low, during, after, rfl, ?_, last, fun i lsn given => ⟨?_, ?_⟩, fun a i page b here =>
    ⟨covered a i page b here, fun lsn below given => covered a i page b here ?_, ?_⟩⟩
  · have later : .asked record.watermark ∈ during ++ .asked record.watermark :: after := by simp
    exact ((ordered_middle ordered).2 _ later).ascends low record.watermark rfl rfl
  · exact numbered_le_iff ordered rfl nofun given
  · rw [numbered_le_iff divided rfl nofun (regrouped ▸ given)]
    simp
  · -- It was numbered before the cycle looked, and so it had written by then.
    have early := (numbered_le_iff ordered rfl nofun given).mp below
    by_contra late
    have front : before <+: a := List.prefix_of_prefix_length_le (List.prefix_append _ _)
      (here ▸ List.prefix_append a _) (Nat.not_lt.mp late)
    rw [here] at ordered
    exact ((ordered_middle ordered).1 _ (front.subset early)).done i lsn page rfl rfl
  · by_cases clean : .flushed page ∈ b
    · exact .inl clean
    · have still : page ∈ t.engine.store.dirty := same ▸ dirty page ⟨a, i, b, here, clean⟩
      exact .inr ⟨still, Checkpointer.dirty_subset_collect _ still⟩

/-- A transaction, then a cycle, and a transaction that writes its page when the cycle has flushed it. -/
def racing : List Turn :=
  [.begin 0 .insert 0 [], .intend 0, .apply 0 .none, .number 0, .commit 0, .collect, .list,
    .begin 1 .insert 0 [], .intend 1, .flush 0 .none, .apply 1 .none, .number 1, .ask 5 2]

def raced : List Event :=
  [.wrote 0 0, .numbered 0 2, .collected 2, .flushed 0, .wrote 1 0, .numbered 1 4, .asked 4]

theorem exists_raced : ∃ (after : Volume) (e : Engine) (s t : Busy),
    Engine.openWith Session.onePage (.still 5) .empty = (.ok e, after) ∧
      (start e).run racing = some s ∧ s.step (.append 5) = some t ∧ e.sequence.next = 1 ∧
      s.history = raced ∧ t.history = raced ++ [.logged ⟨5, 2, 1, 4⟩] := by
  have computed : ((Engine.openWith Session.onePage (.still 5) .empty).1.toOption.bind fun e =>
      ((start e).run racing).bind fun s =>
        (s.step (.append 5)).map fun t => (e.sequence.next, s.history, t.history)) =
      some (1, raced, raced ++ [.logged ⟨5, 2, 1, 4⟩]) := by
    decide +kernel
  rcases opened : Engine.openWith Session.onePage (.still 5) .empty with ⟨fault | e, after⟩
  · rw [opened] at computed
    cases computed
  · rw [opened] at computed
    obtain ⟨s, ran, ended⟩ := Option.bind_eq_some_iff.mp (Option.bind_some e _ ▸ computed)
    obtain ⟨t, stepped, same⟩ := Option.map_eq_some_iff.mp ended
    simp only [Prod.mk.injEq] at same
    obtain ⟨first, before, behind⟩ := same
    exact ⟨after, e, s, t, rfl, ran, stepped, first, before, behind⟩

/-- The first transaction is covered. The second one is named by the watermark as well, but only the next
cycle finds its page. -/
theorem watermark_covers_raced : ∃ (after : Volume) (e : Engine) (s t : Busy),
    Engine.openWith Session.onePage (.still 5) .empty = (.ok e, after) ∧
      (start e).run racing = some s ∧ s.step (.append 5) = some t ∧
      t.history = s.history ++ [.logged ⟨5, 2, 1, 4⟩] ∧ s.history = raced ∧
      .flushed 0 ∈ raced.drop 1 ∧ .flushed 0 ∉ raced.drop 5 ∧ 0 ∈ t.engine.store.dirty := by
  obtain ⟨after, e, s, t, opened, ran, stepped, first, history, logged⟩ := exists_raced
  have behind : t.history = s.history ++ [.logged ⟨5, 2, 1, 4⟩] := logged.trans (history ▸ rfl)
  obtain ⟨before, low, during, later, split, -, -, -, covers⟩ :=
    watermark_covers (first ▸ by decide) (first ▸ by decide) ran stepped behind
  have collected : low = 2 := by
    have mem : .collected low ∈ raced := history ▸ split ▸ by simp
    simpa [raced] using mem
  have fresh : .flushed 0 ∉ raced.drop 5 := by decide
  refine ⟨after, e, s, t, opened, ran, stepped, behind, history, ?_, fresh, ?_⟩
  · exact (covers [] 0 0 (raced.drop 1) history).2.1 2 (collected ▸ UInt64.le_refl 2)
      (history ▸ by decide)
  · exact ((covers (raced.take 4) 1 0 (raced.drop 5) history).2.2.resolve_left fresh).1

/-- A watermark that names what is not flushed: a page that was written behind the flush, and one that was
written before the engine was opened, which no cycle finds any more. -/
theorem watermark_ahead :
    (∃ (after : Volume) (e : Engine) (s t : Busy) (a b : List Event),
      Engine.openWith Session.onePage (.still 5) .empty = (.ok e, after) ∧
        (start e).run racing = some s ∧ s.step (.append 5) = some t ∧
        t.history = s.history ++ [.logged ⟨5, 2, 1, 4⟩] ∧ .numbered 1 4 ∈ s.history ∧
        s.history = a ++ .wrote 1 0 :: b ∧ .flushed 0 ∉ b) ∧
    ((Engine.openWith Session.onePage (.still 5) .empty).1.toOption.bind fun e =>
      let written := Session.inserted e
      (Engine.openWith Session.onePage (.still 5) written.close.2.store.disk).1.toOption.bind fun e' =>
        (e'.checkpoint 0).1.toOption.map fun report =>
          (written.buffer.records.map fun r => (r.lsn, r.page, r.committed), written.store.dirty, report)) =
      some ([(1, 0, false), (2, 0, true)], [0], ⟨some ⟨5, 0, 0, 2⟩, 0, []⟩) := by
  constructor
  · obtain ⟨after, e, s, t, opened, ran, stepped, -, history, logged⟩ := exists_raced
    refine ⟨after, e, s, t, raced.take 4, raced.drop 5, opened, ran, stepped, logged.trans (history ▸ rfl),
      ?_, history, by decide⟩
    rw [history]
    decide
  · decide +kernel

end Busy

end PageJournal
