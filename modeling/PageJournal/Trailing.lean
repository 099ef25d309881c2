/-!
Cutting the end of a list: padding behind a page's payload and blanks behind a line of text go
the same way. Main statements: what is cut satisfies the predicate, and nothing else is lost.
-/
namespace PageJournal

variable {α : Type} {p : α → Bool}

/-- The list without the longest run of `p` at its end. -/
def dropTrailing (p : α → Bool) (l : List α) : List α :=
  l.foldr (fun a kept => if kept.isEmpty && p a then [] else a :: kept) []

@[simp] theorem dropTrailing_nil : dropTrailing p [] = [] := rfl

theorem dropTrailing_cons (a : α) (l : List α) :
    dropTrailing p (a :: l) =
      if (dropTrailing p l).isEmpty && p a then [] else a :: dropTrailing p l := rfl

theorem dropTrailing_eq_nil {l : List α} : dropTrailing p l = [] ↔ ∀ a ∈ l, p a = true := by
  induction l with
  | nil => simp
  | cons a rest ih =>
    rw [dropTrailing_cons, List.forall_mem_cons, ← ih]
    by_cases ha : p a <;> cases dropTrailing p rest <;> simp [ha]

/-- Nothing but a run of `p` is lost. -/
theorem exists_append_dropTrailing (p : α → Bool) (l : List α) :
    ∃ cut, dropTrailing p l ++ cut = l ∧ ∀ a ∈ cut, p a = true := by
  induction l with
  | nil => exact ⟨[], rfl, by simp⟩
  | cons a rest ih =>
    obtain ⟨cut, whole, all⟩ := ih
    rw [dropTrailing_cons]
    split
    · next h =>
      simp only [Bool.and_eq_true, List.isEmpty_iff] at h
      exact ⟨a :: rest, rfl, List.forall_mem_cons.2 ⟨h.2, dropTrailing_eq_nil.1 h.1⟩⟩
    · exact ⟨cut, by simp [whole], all⟩

/-- A run of `p` behind a list is cut with whatever it follows. -/
theorem dropTrailing_append {m : List α} (all : ∀ a ∈ m, p a = true) (l : List α) :
    dropTrailing p (l ++ m) = dropTrailing p l := by
  induction l with
  | nil => exact dropTrailing_eq_nil.2 all
  | cons a rest ih => rw [List.cons_append, dropTrailing_cons, ih, ← dropTrailing_cons]

/-- Nothing is cut in front of an element outside `p`. -/
theorem dropTrailing_append_cons {a : α} (stays : p a = false) (l m : List α) :
    dropTrailing p (l ++ a :: m) = l ++ a :: dropTrailing p m := by
  induction l with
  | nil => simp [dropTrailing_cons, stays]
  | cons b rest ih =>
    rw [List.cons_append, dropTrailing_cons, ih]
    simp

/-- A list that ends outside `p` keeps everything. -/
theorem dropTrailing_concat {a : α} (stays : p a = false) (l : List α) :
    dropTrailing p (l ++ [a]) = l ++ [a] := dropTrailing_append_cons stays l []

end PageJournal
