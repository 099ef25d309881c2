import PageJournal.Text.Decimal
/-!
Fixed-point text of non-negative binary floating-point numbers. The text is that of the exact
value of the number, rounded to the given count of places; a tie goes to the even neighbour.
-/
namespace PageJournal.Text

/-- The quotient rounded to the nearest whole number, a tie to the even one. -/
def roundQuotient (num den : Nat) : Nat :=
  let whole := num / den
  let twice := 2 * (num % den)
  if twice < den then whole
  else if den < twice then whole + 1
  else whole + whole % 2

/-- Rounding moves a quotient by half a unit at most. -/
theorem roundQuotient_close (num den : Nat) (pos : 0 < den) :
    2 * (roundQuotient num den * den) ≤ 2 * num + den ∧
      2 * num ≤ 2 * (roundQuotient num den * den) + den := by
  have split := Nat.div_add_mod' num den
  have small := Nat.mod_lt num pos
  unfold roundQuotient
  simp only
  split
  · constructor <;> omega
  · split
    · rw [Nat.add_mul]; constructor <;> omega
    · rcases Nat.mod_two_eq_zero_or_one (num / den) with even | odd
      · rw [even, Nat.add_zero]; constructor <;> omega
      · rw [odd, Nat.add_mul]; constructor <;> omega

/-- A non-negative finite double as `significand * 2 ^ (exponent - 1075)`. -/
def significandExponent (bits : UInt64) : Nat × Nat :=
  let unit := Nat.pow 2 52
  let fraction := bits.toNat % unit
  let exponent := bits.toNat / unit % Nat.pow 2 11
  if exponent = 0 then (fraction, 1) else (fraction + unit, exponent)

/-- The fixed-point text of a non-negative finite double. -/
def fixed (places : Nat) (x : Float) : List Char :=
  let (significand, exponent) := significandExponent x.toBits
  let scale := Nat.pow 10 places
  let units := roundQuotient (significand * Nat.pow 2 exponent * scale) (Nat.pow 2 1075)
  let decimals := decimal (units % scale)
  decimal (units / scale) ++ '.' ::
    (List.replicate (places - decimals.length) '0' ++ decimals)

end PageJournal.Text
