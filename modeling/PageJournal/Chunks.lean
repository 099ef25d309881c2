/-!
Cutting a list into consecutive pieces of one size, the last one perhaps shorter.
-/
namespace PageJournal

variable {α : Type}

/-- At most `limit` pieces. -/
def chunksUpTo (size : Nat) : Nat → List α → List (List α)
  | 0, _ => []
  | limit + 1, l => if l.isEmpty then [] else l.take size :: chunksUpTo size limit (l.drop size)

def chunks (size : Nat) (l : List α) : List (List α) := chunksUpTo size l.length l

theorem flatten_chunksUpTo {size : Nat} (pos : 0 < size) (limit : Nat) (l : List α)
    (fits : l.length ≤ limit) : (chunksUpTo size limit l).flatten = l := by
  induction limit generalizing l with
  | zero => simp [chunksUpTo, List.length_eq_zero_iff.1 (Nat.le_zero.1 fits)]
  | succ limit ih =>
    rw [chunksUpTo]
    split
    · next h => simp [List.isEmpty_iff.1 h]
    · have shorter : (l.drop size).length ≤ limit := by
        rw [List.length_drop]
        omega
      rw [List.flatten_cons, ih _ shorter, List.take_append_drop]

/-- Nothing is lost by cutting. -/
theorem flatten_chunks {size : Nat} (pos : 0 < size) (l : List α) : (chunks size l).flatten = l :=
  flatten_chunksUpTo pos l.length l (Nat.le_refl _)

end PageJournal
