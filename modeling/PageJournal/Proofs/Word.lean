import Mathlib.Algebra.GroupWithZero.Nat

/-! 64-bit words: where counting up stays in range, and the larger of two as a least upper bound of them. -/
namespace PageJournal

theorem toNat_max (a b : UInt64) : (max a b).toNat = max a.toNat b.toNat := by
  rw [show max a b = if a ≤ b then b else a from rfl]
  split
  · next le => rw [Nat.max_eq_right (UInt64.le_iff_toNat_le.mp le)]
  · next gt => rw [Nat.max_eq_left (Nat.le_of_not_le fun h => gt (UInt64.le_iff_toNat_le.mpr h))]

instance lawfulOrderSup : Std.LawfulOrderSup UInt64 where
  max_le_iff a b c := by
    simp only [UInt64.le_iff_toNat_le, toNat_max]
    omega

theorem toNat_succ_iff (n : UInt64) : (n + 1).toNat = n.toNat + 1 ↔ n.toNat + 1 < 2 ^ 64 := by
  have small := n.toNat_lt
  rw [UInt64.toNat_add, UInt64.toNat_one]
  omega

theorem succ_ne (n : UInt64) : n + 1 ≠ n := by
  intro same
  have nats := congrArg UInt64.toNat same
  have fits := n.toNat_lt
  rw [UInt64.toNat_add, UInt64.toNat_one] at nats
  omega

theorem add_ofNat_le {first : UInt64} {m n most : Nat} (fewer : m ≤ n) (bounded : n ≤ most)
    (fits : first.toNat + most < 2 ^ 64) : first + UInt64.ofNat m ≤ first + UInt64.ofNat n := by
  have small : ∀ k ≤ n, (first + UInt64.ofNat k).toNat = first.toNat + k := by
    intro k le
    have below : k < UInt64.size := by
      change k < 2 ^ 64
      omega
    rw [UInt64.toNat_add, UInt64.toNat_ofNat_of_lt' below, Nat.mod_eq_of_lt (by omega)]
  rw [UInt64.le_iff_toNat_le, small m fewer, small n (Nat.le_refl n)]
  omega

end PageJournal
