import PageJournal.Text.Decimal
import PageJournal.Proofs.Text.Ascii

/-! Numerals of words. A text is read as a number exactly if it is a numeral of it: one optional plus
sign, then ASCII digits. So what is written reads back, and no label or separator of a line can
stand in what reads as a number. -/
namespace PageJournal.Text

theorem digitsFrom_eq {s : List Char} (digit : ∀ c ∈ s, c.isDigit = true) (seen : Nat) :
    digitsFrom seen s = some (Nat.ofDigitChars 10 s seen) := by
  induction s generalizing seen with
  | nil => rfl
  | cons c rest ih =>
    have tail := ih (fun d hd => digit d (List.mem_cons_of_mem _ hd))
    rw [digitsFrom, if_pos (digit c List.mem_cons_self), tail, Nat.ofDigitChars_cons]

theorem isDigit_of_digitsFrom {s : List Char} {seen n : Nat} (h : digitsFrom seen s = some n) :
    ∀ c ∈ s, c.isDigit = true := by
  induction s generalizing seen with
  | nil => simp
  | cons c rest ih =>
    rw [digitsFrom] at h
    split at h
    · next digit =>
      intro d hd
      rcases List.mem_cons.mp hd with rfl | hd
      · exact digit
      · exact ih h d hd
    · contradiction

theorem digits_eq_some {s : List Char} {n : Nat} :
    digits s = some n ↔ s ≠ [] ∧ (∀ d ∈ s, d.isDigit = true) ∧ n = Nat.ofDigitChars 10 s 0 := by
  cases s with
  | nil => simp [digits]
  | cons c rest =>
    simp only [digits]
    constructor
    · intro read
      have all := isDigit_of_digitsFrom read
      simp only [digitsFrom_eq all, Option.some.injEq] at read
      exact ⟨by simp, all, read.symm⟩
    · intro ⟨_, all, value⟩
      simp only [digitsFrom_eq all, value]

/-- The text is a numeral of the number. -/
def IsNumeral (s : List Char) (n : Nat) : Prop :=
  ∃ sign ds, s = sign ++ ds ∧ (sign = [] ∨ sign = ['+']) ∧ ds ≠ [] ∧
    (∀ d ∈ ds, d.isDigit = true) ∧ n = Nat.ofDigitChars 10 ds 0

theorem numeral_eq_some {s : List Char} {n : Nat} : numeral s = some n ↔ IsNumeral s n := by
  have noSign : ('+').isDigit = false := by decide
  unfold numeral
  split
  · next rest =>
    simp only [digits_eq_some]
    constructor
    · intro ⟨nonempty, all, value⟩
      exact ⟨['+'], rest, rfl, .inr rfl, nonempty, all, value⟩
    · rintro ⟨sign, ds, whole, rfl | rfl, nonempty, all, value⟩
      · have sign := all '+' (by simp only [List.nil_append] at whole; simp [← whole])
        simp [noSign] at sign
      · cases whole
        exact ⟨nonempty, all, value⟩
  · next unsigned =>
    simp only [digits_eq_some]
    constructor
    · intro ⟨nonempty, all, value⟩
      exact ⟨[], s, rfl, .inl rfl, nonempty, all, value⟩
    · rintro ⟨sign, ds, rfl, rfl | rfl, nonempty, all, value⟩
      · exact ⟨nonempty, all, value⟩
      · simp at unsigned

theorem numeralBelow_eq_some {bound n : Nat} {s : List Char} :
    numeralBelow bound s = some n ↔ IsNumeral s n ∧ n < bound := by
  simp [numeralBelow, Option.filter_eq_some_iff, numeral_eq_some]

theorem word64_eq_some {s : List Char} {n : UInt64} : word64 s = some n ↔ IsNumeral s n.toNat := by
  simp only [word64, Option.map_eq_some_iff, numeralBelow_eq_some]
  constructor
  · rintro ⟨m, ⟨numeral, fits⟩, rfl⟩
    simpa [Nat.mod_eq_of_lt fits] using numeral
  · intro numeral
    exact ⟨n.toNat, ⟨numeral, n.toNat_lt_size⟩, UInt64.ofNat_toNat⟩

theorem word32_eq_some {s : List Char} {n : UInt32} : word32 s = some n ↔ IsNumeral s n.toNat := by
  simp only [word32, Option.map_eq_some_iff, numeralBelow_eq_some]
  constructor
  · rintro ⟨m, ⟨numeral, fits⟩, rfl⟩
    simpa [Nat.mod_eq_of_lt fits] using numeral
  · intro numeral
    exact ⟨n.toNat, ⟨numeral, n.toNat_lt_size⟩, UInt32.ofNat_toNat⟩

theorem isDigit_of_mem_decimal {n : Nat} {c : Char} (h : c ∈ decimal n) : c.isDigit = true :=
  Nat.isDigit_of_mem_toDigits (by decide) (by decide) h

theorem isNumeral_decimal (n : Nat) : IsNumeral (decimal n) n := by
  have value : Nat.ofDigitChars 10 (decimal n) 0 = n :=
    Nat.ofDigitChars_toDigits (by decide) (by decide)
  exact ⟨[], decimal n, rfl, .inl rfl, Nat.toDigits_ne_nil, fun _ => isDigit_of_mem_decimal, value.symm⟩

theorem word64_decimal (n : UInt64) : word64 (decimal n.toNat) = some n :=
  word64_eq_some.mpr (isNumeral_decimal _)

theorem word32_decimal (n : UInt32) : word32 (decimal n.toNat) = some n :=
  word32_eq_some.mpr (isNumeral_decimal _)

/-- A text is a numeral of one number only. -/
theorem IsNumeral.unique {s : List Char} {m n : Nat} (one : IsNumeral s m) (other : IsNumeral s n) :
    m = n :=
  Option.some.inj ((numeral_eq_some.mpr one).symm.trans (numeral_eq_some.mpr other))

theorem mem_of_isNumeral {s : List Char} {n : Nat} (h : IsNumeral s n) :
    ∀ c ∈ s, c = '+' ∨ c.isDigit = true := by
  obtain ⟨sign, ds, rfl, plus, -, all, -⟩ := h
  intro c mem
  obtain first | digit := List.mem_append.mp mem
  · obtain rfl | rfl := plus
    · simp at first
    · exact .inl (List.mem_singleton.mp first)
  · exact .inr (all c digit)

theorem mem_of_word64 {s : List Char} {n : UInt64} (h : word64 s = some n) :
    ∀ c ∈ s, c = '+' ∨ c.isDigit = true := mem_of_isNumeral (word64_eq_some.mp h)

theorem mem_of_word32 {s : List Char} {n : UInt32} (h : word32 s = some n) :
    ∀ c ∈ s, c = '+' ∨ c.isDigit = true := mem_of_isNumeral (word32_eq_some.mp h)

/-- A character that is no plus sign and no digit stands in no numeral. -/
theorem not_mem_numeral {s : List Char} (h : ∀ c ∈ s, c = '+' ∨ c.isDigit = true) {d : Char}
    (other : d ≠ '+') (letter : d.isDigit = false) : d ∉ s := by
  intro hd
  rcases h d hd with rfl | digit
  · exact other rfl
  · rw [letter] at digit
    contradiction

theorem toNat_lt_of_isDigit {c : Char} (h : c.isDigit = true) : 48 ≤ c.toNat ∧ c.toNat ≤ 57 := by
  simpa [Char.isDigit, UInt32.le_iff_toNat_le] using h

theorem ascii_of_isNumeral {s : List Char} {n : Nat} (h : IsNumeral s n) : Ascii s := by
  intro c mem
  rcases mem_of_isNumeral h c mem with rfl | digit
  · decide
  · have := (toNat_lt_of_isDigit digit).2
    omega

end PageJournal.Text
