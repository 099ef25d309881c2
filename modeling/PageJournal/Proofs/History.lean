/-! What has happened since. A history is a list of events, the latest at its end. -/
namespace PageJournal

variable {α : Type} {P Q : α → Prop} {history : List α} {last : α}

/-- Something of one kind has happened, and nothing of the other kind since. -/
def Since (P Q : α → Prop) (history : List α) : Prop :=
  ∃ before x after, history = before ++ x :: after ∧ P x ∧ ∀ y ∈ after, ¬ Q y

theorem not_since_nil : ¬ Since P Q [] := by
  rintro ⟨before, x, after, empty, -⟩
  exact List.append_ne_nil_of_right_ne_nil before (List.cons_ne_nil x after) empty.symm

theorem since_concat : Since P Q (history ++ [last]) ↔ P last ∨ Since P Q history ∧ ¬ Q last := by
  constructor
  · rintro ⟨before, x, after, same, happened, since⟩
    rcases List.eq_nil_or_concat after with rfl | ⟨middle, final, rfl⟩
    · obtain ⟨-, final⟩ := List.append_inj' same rfl
      obtain rfl := (List.cons.inj final).1
      exact .inl happened
    · have split : history ++ [last] = (before ++ x :: middle) ++ [final] := by simpa using same
      obtain ⟨rfl, final⟩ := List.append_inj' split rfl
      obtain rfl := (List.cons.inj final).1
      refine .inr ⟨⟨before, x, middle, rfl, happened, fun y mem => ?_⟩, ?_⟩
      · exact since y (by simp [mem])
      · exact since _ (by simp)
  · rintro (happened | ⟨⟨before, x, after, rfl, happened, since⟩, not⟩)
    · exact ⟨history, last, [], rfl, happened, by simp⟩
    · refine ⟨before, x, after ++ [last], by simp, happened, fun y mem => ?_⟩
      rcases List.mem_append.mp mem with mem | mem
      · exact since y mem
      · obtain rfl := List.mem_singleton.mp mem
        exact not

end PageJournal
