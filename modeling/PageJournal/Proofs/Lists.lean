import Mathlib.Data.List.Dedup
import Mathlib.Data.UInt

/-! Lists that are put together, cut, counted and changed in one place. -/
namespace PageJournal

variable {α β : Type}

section Parts

/-- A beginning ends in the first list, or holds all of it. -/
theorem prefix_append_cases {start a b : List α} (h : start <+: a ++ b) :
    start <+: a ∨ ∃ later, start = a ++ later ∧ later <+: b := by
  obtain ⟨rest, same⟩ := h
  rcases List.append_eq_append_iff.mp same with ⟨x, rfl, -⟩ | ⟨x, rfl, rfl⟩
  · exact .inl (List.prefix_append _ _)
  · exact .inr ⟨x, rfl, List.prefix_append _ _⟩

/-- A beginning of a row is a row of beginnings. -/
theorem exists_of_prefix_flatten {parts : List (List α)} {text : List α}
    (start : text <+: parts.flatten) :
    ∃ cut : List (List α), text = cut.flatten ∧ ∀ part ∈ cut, ∃ full ∈ parts, part <+: full := by
  induction parts generalizing text with
  | nil =>
    rw [List.flatten_nil, List.prefix_nil] at start
    exact ⟨[], start, nofun⟩
  | cons full rest ih =>
    rw [List.flatten_cons] at start
    rcases prefix_append_cases start with inside | ⟨later, rfl, tail⟩
    · refine ⟨[text], by simp, fun part mem => ?_⟩
      rw [List.mem_singleton.mp mem]
      exact ⟨full, List.mem_cons_self, inside⟩
    · obtain ⟨cut, rfl, begin⟩ := ih tail
      refine ⟨full :: cut, rfl, fun part mem => ?_⟩
      rcases List.mem_cons.mp mem with rfl | mem
      · exact ⟨part, List.mem_cons_self, List.prefix_rfl⟩
      · obtain ⟨x, there, inside⟩ := begin part mem
        exact ⟨x, List.mem_cons_of_mem full there, inside⟩

/-- An element that stands in the first list splits it. -/
theorem exists_split_front {front back a b : List α} {x : α} (split : front ++ back = a ++ x :: b)
    (early : a.length < front.length) : ∃ c, front = a ++ x :: c ∧ b = c ++ back := by
  rcases List.append_eq_append_iff.mp split with ⟨c, rfl, -⟩ | ⟨c, rfl, rest⟩
  · rw [List.length_append] at early
    omega
  · cases c with
    | nil =>
      rw [List.append_nil] at early
      exact absurd early (Nat.lt_irrefl _)
    | cons y c =>
      obtain ⟨rfl, rfl⟩ := List.cons.inj rest
      exact ⟨c, rfl, rfl⟩

theorem dropLast_append_toList (l : List α) : l.dropLast ++ l.getLast?.toList = l := by
  cases last : l.getLast? with
  | none =>
    rw [List.getLast?_eq_none_iff.mp last]
    rfl
  | some a => exact List.dropLast_append_getLast? a last

/-- Joined texts: the first one, then each further one behind a separator. -/
theorem intercalate_cons (separator : α) (text : List α) (texts : List (List α)) :
    [separator].intercalate (text :: texts) = text ++ texts.flatMap (separator :: ·) := by
  induction texts generalizing text with
  | nil => simp
  | cons next rest ih => simp [List.intercalate_cons_cons, ih]

theorem range_append (n k : Nat) : List.range n ++ List.range' n k = List.range (n + k) := by
  rw [List.range_eq_range', List.range_eq_range', ← List.range'_append_1, Nat.zero_add]

/-- What stands in a list behind which something was put. -/
theorem getElem?_concat_cases {xs : List α} {i : Nat} {new x : α}
    (there : (xs ++ [new])[i]? = some x) : i = xs.length ∧ x = new ∨ xs[i]? = some x := by
  rcases Nat.lt_or_ge i xs.length with old | late
  · rw [List.getElem?_append_left old] at there
    exact .inr there
  · rw [List.getElem?_append_right late] at there
    obtain ⟨last, same⟩ := List.getElem?_eq_some_iff.mp there
    rw [List.length_singleton] at last
    exact .inl ⟨by omega, same.symm.trans (List.getElem_singleton _)⟩

end Parts

section Counts

theorem countP_split (p : α → Bool) (front : List α) (a : α) (back : List α) :
    (front ++ a :: back).countP p = front.countP p + back.countP p + (p a).toNat := by
  cases own : p a <;> simp [List.countP_append, own, Nat.add_assoc]

theorem countP_eq_sum (p : α → Bool) (xs : List α) :
    xs.countP p = (xs.map fun x => if p x then 1 else 0).sum := by
  induction xs with
  | nil => rfl
  | cons x rest ih => rw [List.countP_cons, ih, List.map_cons, List.sum_cons, Nat.add_comm]

/-- What moves a word by one for each element of a kind moves it as often as there are such elements. -/
theorem sum_eq_countP {moved : α → UInt64} {p : α → Bool} {xs : List α}
    (each : ∀ x ∈ xs, moved x = if p x then 1 else 0) :
    (xs.map moved).sum = UInt64.ofNat (xs.countP p) := by
  induction xs with
  | nil => rfl
  | cons x rest ih =>
    rw [List.map_cons, List.sum_cons, ih fun y mem => each y (List.mem_cons_of_mem x mem),
      each x List.mem_cons_self, List.countP_cons, UInt64.ofNat_add, UInt64.add_comm]
    cases p x <;> rfl

theorem add_countP_concat (first : UInt64) (p : α → Bool) (history : List α) (x : α) :
    first + UInt64.ofNat ((history ++ [x]).countP p) =
      first + UInt64.ofNat (history.countP p) + (if p x then 1 else 0) := by
  rw [List.countP_append, List.countP_singleton, UInt64.ofNat_add, ← UInt64.add_assoc]
  split <;> rfl

theorem length_eq_dedup [DecidableEq α] {once xs : List α} (distinct : once.Nodup)
    (same : ∀ x, x ∈ once ↔ x ∈ xs) : once.length = xs.dedup.length := by
  apply List.Perm.length_eq
  apply (List.perm_ext_iff_of_nodup distinct xs.nodup_dedup).mpr
  simpa using same

end Counts

section Changes

theorem sum_set {xs : List Nat} {i x : Nat} (here : xs[i]? = some x) (y : Nat) :
    (xs.set i y).sum + x = xs.sum + y := by
  induction xs generalizing i with
  | nil => cases here
  | cons z rest ih =>
    cases i with
    | zero =>
      cases here
      simp only [List.set_cons_zero, List.sum_cons]
      omega
    | succ i =>
      have later := ih (i := i) here
      simp only [List.set_cons_succ, List.sum_cons]
      omega

/-- What one element of a list contributes can be exchanged for what another would. -/
theorem filterMap_set (f : α → Option β) {xs : List α} {i : Nat} {x : α}
    (here : xs[i]? = some x) : ∃ others, (xs.filterMap f).Perm ((f x).toList ++ others) ∧
      ∀ y, ((xs.set i y).filterMap f).Perm ((f y).toList ++ others) := by
  obtain ⟨inside, same⟩ := List.getElem?_eq_some_iff.mp here
  have split : ∀ y, xs.set i y = xs.take i ++ y :: xs.drop (i + 1) :=
    fun y => List.set_eq_take_append_cons_drop.trans (if_pos inside)
  have others : ∀ y, ((xs.set i y).filterMap f).Perm ((f y).toList ++
      ((xs.take i).filterMap f ++ (xs.drop (i + 1)).filterMap f)) := by
    intro y
    have cons : (y :: xs.drop (i + 1)).filterMap f = (f y).toList ++ (xs.drop (i + 1)).filterMap f := by
      rw [List.filterMap_cons]
      cases f y <;> rfl
    rw [split, List.filterMap_append, cons, ← List.append_assoc, ← List.append_assoc]
    exact List.perm_append_comm.append_right _
  have itself : xs.set i x = xs := by rw [← same, List.set_getElem_self]
  have own := others x
  rw [itself] at own
  exact ⟨_, own, others⟩

/-- Where the keys are distinct, the element with a key can be taken to the front. -/
theorem perm_find_filter [DecidableEq β] {key : α → β} {k : β} {l : List α} {x : α}
    (distinct : (l.map key).Nodup) (found : l.find? (key · == k) = some x) :
    l.Perm (x :: l.filter (key · != k)) := by
  induction l with
  | nil => cases found
  | cons y rest ih =>
    obtain ⟨apart, distinct⟩ := List.nodup_cons.mp distinct
    by_cases same : key y = k
    · rw [List.find?_cons_of_pos (by simpa using same)] at found
      obtain rfl := Option.some.inj found
      have others : rest.filter (key · != k) = rest := by
        refine List.filter_eq_self.mpr fun z mem => ?_
        rw [bne_iff_ne]
        rintro rfl
        exact apart (List.mem_map.mpr ⟨z, mem, same.symm⟩)
      rw [List.filter_cons_of_neg (by simpa using same), others]
    · rw [List.find?_cons_of_neg (by simpa using same)] at found
      rw [List.filter_cons_of_pos (by simpa using same)]
      exact ((ih distinct found).cons y).trans (.swap x y _)

variable [DecidableEq α] {x : α} {l : List α} {n : Nat}

/-- An element among the first ones moves to the front within them. -/
theorem take_erase_of_mem (mem : x ∈ l.take (n + 1)) : (l.take (n + 1)).erase x = (l.erase x).take n := by
  induction l generalizing n with
  | nil => exact absurd mem (by simp)
  | cons y rest ih =>
    by_cases same : y = x
    · rw [List.take_succ_cons, same, List.erase_cons_head, List.erase_cons_head]
    · rw [List.take_succ_cons] at mem ⊢
      rw [List.erase_cons_tail (by simpa using same), List.erase_cons_tail (by simpa using same)]
      have later := (List.mem_cons.mp mem).resolve_left (Ne.symm same)
      cases n with
      | zero => cases later
      | succ n => rw [ih later, List.take_succ_cons]

theorem take_erase_of_not_mem (absent : x ∉ l.take n) : (l.erase x).take n = l.take n := by
  induction l generalizing n with
  | nil => rfl
  | cons y rest ih =>
    cases n with
    | zero => rfl
    | succ n =>
      rw [List.take_succ_cons] at absent ⊢
      rw [List.mem_cons, not_or] at absent
      obtain ⟨other, absent⟩ := absent
      rw [List.erase_cons_tail (by simpa using Ne.symm other), List.take_succ_cons, ih absent]

end Changes

end PageJournal
