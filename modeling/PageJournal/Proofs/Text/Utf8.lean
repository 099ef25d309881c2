import Mathlib.Data.List.Induction
import PageJournal.Proofs.Outcome
import PageJournal.Proofs.Text.Ascii

/-! Decoding against encoding. Bytes can be read exactly if they are the encoding of a text, and then that
text is what they are read as. Overlong forms, surrogates and strict beginnings of a character are the
encoding of nothing. -/
namespace PageJournal.Text.Utf8

theorem toNat_valid (c : Char) : c.toNat < 0xD800 ∨ 0xDFFF < c.toNat ∧ c.toNat < 0x110000 := c.valid

theorem eq_ofNat_iff {c : Char} {n : Nat} (valid : n.isValidChar) : c = Char.ofNat n ↔ c.toNat = n := by
  have back : (Char.ofNat n).toNat = n := by
    rw [Char.ofNat, dif_pos valid]
    rfl
  constructor
  · rintro rfl
    exact back
  · rintro rfl
    exact (Char.ofNat_toNat c).symm

theorem byte_eq_iff {n : Nat} {b : UInt8} (small : n < 256) : UInt8.ofNat n = b ↔ n = b.toNat := by
  simp [← UInt8.toNat_inj, Nat.mod_eq_of_lt small]

section

/- The characters of each width, by the ranges of their bytes. -/
variable {c : Char} {b d e f : UInt8}

theorem encodeChar_one : String.utf8EncodeChar c = [b] ↔ b.toNat < 0x80 ∧ c.toNat = b.toNat := by
  have value : c.val.toNat = c.toNat := rfl
  simp only [String.utf8EncodeChar, value]
  by_cases one : c.toNat ≤ 127
  · rw [if_pos one, List.singleton_inj, byte_eq_iff (by omega)]
    omega
  · exact iff_of_false (by grind) (by omega)

theorem encodeChar_two : String.utf8EncodeChar c = [b, d] ↔
    (0xC2 ≤ b.toNat ∧ b.toNat ≤ 0xDF) ∧ (0x80 ≤ d.toNat ∧ d.toNat ≤ 0xBF) ∧
      c.toNat = b.toNat % 32 * 64 + d.toNat % 64 := by
  have value : c.val.toNat = c.toNat := rfl
  simp only [String.utf8EncodeChar, value]
  by_cases two : 127 < c.toNat ∧ c.toNat ≤ 2047
  · rw [if_neg (by omega), if_pos two.2]
    simp only [List.cons.injEq, and_true]
    rw [byte_eq_iff (by omega), byte_eq_iff (by omega)]
    omega
  · exact iff_of_false (by grind) (by omega)

theorem encodeChar_three : String.utf8EncodeChar c = [b, d, e] ↔
    (0xE0 ≤ b.toNat ∧ b.toNat ≤ 0xEF) ∧
      ((if b.toNat = 0xE0 then 0xA0 else 0x80) ≤ d.toNat ∧
        d.toNat ≤ if b.toNat = 0xED then 0x9F else 0xBF) ∧
      (0x80 ≤ e.toNat ∧ e.toNat ≤ 0xBF) ∧
      c.toNat = (b.toNat % 16 * 64 + d.toNat % 64) * 64 + e.toNat % 64 := by
  have value : c.val.toNat = c.toNat := rfl
  have valid := toNat_valid c
  simp only [String.utf8EncodeChar, value]
  by_cases three : 2047 < c.toNat ∧ c.toNat ≤ 65535
  · rw [if_neg (by omega), if_neg (by omega), if_pos three.2]
    simp only [List.cons.injEq, and_true]
    rw [byte_eq_iff (by omega), byte_eq_iff (by omega), byte_eq_iff (by omega)]
    split <;> split <;> omega
  · exact iff_of_false (by grind) (by split <;> split <;> omega)

theorem encodeChar_four : String.utf8EncodeChar c = [b, d, e, f] ↔
    (0xF0 ≤ b.toNat ∧ b.toNat ≤ 0xF4) ∧
      ((if b.toNat = 0xF0 then 0x90 else 0x80) ≤ d.toNat ∧
        d.toNat ≤ if b.toNat = 0xF4 then 0x8F else 0xBF) ∧
      (0x80 ≤ e.toNat ∧ e.toNat ≤ 0xBF) ∧ (0x80 ≤ f.toNat ∧ f.toNat ≤ 0xBF) ∧
      c.toNat = ((b.toNat % 8 * 64 + d.toNat % 64) * 64 + e.toNat % 64) * 64 + f.toNat % 64 := by
  have value : c.val.toNat = c.toNat := rfl
  have valid := toNat_valid c
  simp only [String.utf8EncodeChar, value]
  by_cases four : 65535 < c.toNat
  · rw [if_neg (by omega), if_neg (by omega), if_neg (by omega)]
    simp only [List.cons.injEq, and_true]
    rw [byte_eq_iff (by omega), byte_eq_iff (by omega), byte_eq_iff (by omega), byte_eq_iff (by omega)]
    split <;> split <;> omega
  · exact iff_of_false (by grind) (by split <;> split <;> omega)

end

theorem length_encodeChar (c : Char) : (String.utf8EncodeChar c).length ≤ 4 := by
  rw [String.utf8EncodeChar]
  grind

theorem lead_eq_some {index : Nat} {b : UInt8} {p : Partial} : lead index b = some p ↔
    (0xC2 ≤ b.toNat ∧ b.toNat ≤ 0xDF) ∧ p = ⟨index, 1, 0, b.toNat % 32, 0x80, 0xBF⟩ ∨
    (0xE0 ≤ b.toNat ∧ b.toNat ≤ 0xEF) ∧ p = ⟨index, 1, 1, b.toNat % 16,
      if b.toNat = 0xE0 then 0xA0 else 0x80, if b.toNat = 0xED then 0x9F else 0xBF⟩ ∨
    (0xF0 ≤ b.toNat ∧ b.toNat ≤ 0xF4) ∧ p = ⟨index, 1, 2, b.toNat % 8,
      if b.toNat = 0xF0 then 0x90 else 0x80, if b.toNat = 0xF4 then 0x8F else 0xBF⟩ := by
  simp only [lead, UInt8.lt_iff_toNat_lt, UInt8.le_iff_toNat_le, UInt8.reduceToNat, ← UInt8.toNat_inj]
  grind

theorem not_low_of_lead {index : Nat} {b : UInt8} {p : Partial} (begun : lead index b = some p) :
    ¬ b < 0x80 := by
  have range := lead_eq_some.mp begun
  simp only [UInt8.lt_iff_toNat_lt, UInt8.reduceToNat]
  omega

/-- The bytes end the character that was begun, and it is this one. -/
def Partial.EndsIn (p : Partial) : Bytes → Char → Prop
  | [], _ => False
  | b :: more, c =>
    (p.low ≤ b ∧ b ≤ p.high) ∧
      match p.owed with
      | 0 => more = [] ∧ c = Char.ofNat (p.extended b)
      | owed + 1 => (p.advance b owed).EndsIn more c

theorem endsIn_last {p : Partial} (last : p.owed = 0) {more : Bytes} {c : Char} :
    p.EndsIn more c ↔ ∃ d, more = [d] ∧ (p.low ≤ d ∧ d ≤ p.high) ∧ c = Char.ofNat (p.extended d) := by
  cases more with
  | nil => simp [Partial.EndsIn]
  | cons d more => grind [Partial.EndsIn]

theorem endsIn_owing {p : Partial} {owed : Nat} (owes : p.owed = owed + 1) {more : Bytes} {c : Char} :
    p.EndsIn more c ↔
      ∃ d rest, more = d :: rest ∧ (p.low ≤ d ∧ d ≤ p.high) ∧ (p.advance d owed).EndsIn rest c := by
  cases more with
  | nil => simp [Partial.EndsIn]
  | cons d rest => grind [Partial.EndsIn]

/-- A character that was read byte by byte is the one that those bytes encode. -/
theorem encodeChar_of_endsIn {index : Nat} {b : UInt8} {p : Partial} {more : Bytes} {c : Char}
    (begun : lead index b = some p) (ends : p.EndsIn more c) : String.utf8EncodeChar c = b :: more := by
  rcases lead_eq_some.mp begun with ⟨first, rfl⟩ | ⟨first, rfl⟩ | ⟨first, rfl⟩
  · obtain ⟨d, rfl, last, value⟩ := (endsIn_last rfl).mp ends
    simp only [Partial.extended, UInt8.le_iff_toNat_le, UInt8.reduceToNat] at last value
    have valid : (b.toNat % 32 * 64 + d.toNat % 64).isValidChar := by
      simp only [Nat.isValidChar]
      omega
    exact encodeChar_two.mpr ⟨first, last, (eq_ofNat_iff valid).mp value⟩
  · obtain ⟨d, _, rfl, second, ends⟩ := (endsIn_owing rfl).mp ends
    obtain ⟨e, rfl, last, value⟩ := (endsIn_last rfl).mp ends
    simp only [Partial.advance, Partial.extended, UInt8.le_iff_toNat_le, apply_ite UInt8.toNat,
      UInt8.reduceToNat] at second last value
    have valid : ((b.toNat % 16 * 64 + d.toNat % 64) * 64 + e.toNat % 64).isValidChar := by
      simp only [Nat.isValidChar]
      grind
    exact encodeChar_three.mpr ⟨first, second, last, (eq_ofNat_iff valid).mp value⟩
  · obtain ⟨d, _, rfl, second, ends⟩ := (endsIn_owing rfl).mp ends
    obtain ⟨e, _, rfl, third, ends⟩ := (endsIn_owing rfl).mp ends
    obtain ⟨f, rfl, last, value⟩ := (endsIn_last rfl).mp ends
    simp only [Partial.advance, Partial.extended, UInt8.le_iff_toNat_le, apply_ite UInt8.toNat,
      UInt8.reduceToNat] at second third last value
    have valid :
        (((b.toNat % 8 * 64 + d.toNat % 64) * 64 + e.toNat % 64) * 64 + f.toNat % 64).isValidChar := by
      simp only [Nat.isValidChar]
      grind
    exact encodeChar_four.mpr ⟨first, second, third, last, (eq_ofNat_iff valid).mp value⟩

/-- And the bytes of every character above ASCII are read so. -/
theorem exists_lead {b : UInt8} {more : Bytes} {c : Char} (high : 0x80 ≤ c.toNat)
    (encoded : String.utf8EncodeChar c = b :: more) (index : Nat) :
    ∃ p, lead index b = some p ∧ p.EndsIn more c := by
  have short := length_encodeChar c
  rw [encoded] at short
  match more, encoded, short with
  | [], encoded, _ =>
    obtain ⟨low, value⟩ := encodeChar_one.mp encoded
    omega
  | [d], encoded, _ =>
    obtain ⟨first, last, value⟩ := encodeChar_two.mp encoded
    refine ⟨_, lead_eq_some.mpr (.inl ⟨first, rfl⟩), (endsIn_last rfl).mpr ⟨d, rfl, ?_, ?_⟩⟩
    · simpa [UInt8.le_iff_toNat_le] using last
    · simp [Partial.extended, ← value]
  | [d, e], encoded, _ =>
    obtain ⟨first, second, last, value⟩ := encodeChar_three.mp encoded
    refine ⟨_, lead_eq_some.mpr (.inr (.inl ⟨first, rfl⟩)),
      (endsIn_owing rfl).mpr ⟨d, [e], rfl, ?_, (endsIn_last rfl).mpr ⟨e, rfl, ?_, ?_⟩⟩⟩
    · simpa [UInt8.le_iff_toNat_le, apply_ite UInt8.toNat] using second
    · simpa [Partial.advance, UInt8.le_iff_toNat_le] using last
    · simp [Partial.advance, Partial.extended, ← value]
  | [d, e, f], encoded, _ =>
    obtain ⟨first, second, third, last, value⟩ := encodeChar_four.mp encoded
    refine ⟨_, lead_eq_some.mpr (.inr (.inr ⟨first, rfl⟩)),
      (endsIn_owing rfl).mpr ⟨d, [e, f], rfl, ?_, (endsIn_owing rfl).mpr ⟨e, [f], rfl, ?_,
        (endsIn_last rfl).mpr ⟨f, rfl, ?_, ?_⟩⟩⟩⟩
    · simpa [UInt8.le_iff_toNat_le, apply_ite UInt8.toNat] using second
    · simpa [Partial.advance, UInt8.le_iff_toNat_le] using third
    · simpa [Partial.advance, UInt8.le_iff_toNat_le] using last
    · simp [Partial.advance, Partial.extended, ← value]
  | _ :: _ :: _ :: _ :: more, _, short =>
    simp only [List.length_cons] at short
    omega

theorem decodeFrom_endsIn {p : Partial} {more : Bytes} {c : Char} (ends : p.EndsIn more c)
    (index : Nat) (rest : Bytes) :
    ∃ next, decodeFrom index (some p) (more ++ rest) = (decodeFrom next none rest).map (c :: ·) := by
  induction more generalizing p index with
  | nil => cases ends
  | cons b more ih =>
    obtain ⟨inside, ends⟩ := ends
    rw [List.cons_append, decodeFrom, if_pos inside]
    cases owed : p.owed with
    | zero =>
      simp only [owed] at ends
      obtain ⟨rfl, rfl⟩ := ends
      exact ⟨index + 1, rfl⟩
    | succ left =>
      simp only [owed] at ends
      exact ih ends (index + 1)

theorem encode_cons (c : Char) (s : List Char) :
    encode (c :: s) = String.utf8EncodeChar c ++ encode s := List.flatMap_cons

theorem encodeChar_low {b : UInt8} (low : b < 0x80) :
    String.utf8EncodeChar (Char.ofNat b.toNat) = [b] := by
  have low : b.toNat < 0x80 := low
  exact encodeChar_one.mpr ⟨low, (eq_ofNat_iff (.inl (by omega))).mp rfl⟩

theorem decodeFrom_encode (s : List Char) (index : Nat) :
    decodeFrom index none (encode s) = .ok s := by
  induction s generalizing index with
  | nil => rfl
  | cons c s ih =>
    rw [encode_cons]
    by_cases small : c.toNat < 128
    · rw [encodeChar_ascii small, List.singleton_append, decodeFrom, if_pos (byte_low small),
        ofNat_byte small, ih]
      rfl
    · rcases encoded : String.utf8EncodeChar c with _ | ⟨b, more⟩
      · exact absurd encoded String.utf8EncodeChar_ne_nil
      obtain ⟨p, begun, ends⟩ := exists_lead (Nat.le_of_not_lt small) encoded index
      obtain ⟨next, read⟩ := decodeFrom_endsIn ends (index + 1) (encode s)
      rw [List.cons_append, decodeFrom, if_neg (not_low_of_lead begun)]
      simp only [begun, read, ih]
      rfl

/-- The bytes are what a text is encoded as, or what ends a character that was begun and a text behind it. -/
def Spells : Option Partial → Bytes → List Char → Prop
  | none, bytes, s => bytes = encode s
  | some p, bytes, s => ∃ more c later, bytes = more ++ encode later ∧ s = c :: later ∧ p.EndsIn more c

theorem spells_of_decodeFrom {begun : Option Partial} {bytes : Bytes} {index : Nat} {s : List Char}
    (read : decodeFrom index begun bytes = .ok s) : Spells begun bytes s := by
  induction bytes generalizing begun index s with
  | nil =>
    cases begun with
    | none =>
      cases read
      rfl
    | some p => simp [decodeFrom] at read
  | cons b rest ih =>
    cases begun with
    | none =>
      rw [decodeFrom] at read
      split at read
      · next low =>
        obtain ⟨later, tail, rfl⟩ := map_eq_ok.mp read
        have encoded : rest = encode later := ih tail
        simp [Spells, encode_cons, encodeChar_low low, encoded]
      split at read
      · next p first =>
        obtain ⟨more, c, later, rfl, rfl, ends⟩ := ih read
        simp [Spells, encode_cons, encodeChar_of_endsIn first ends]
      · cases read
    | some p =>
      rw [decodeFrom] at read
      split at read
      · next inside =>
        split at read
        · next last =>
          obtain ⟨later, tail, rfl⟩ := map_eq_ok.mp read
          have encoded : rest = encode later := ih tail
          exact ⟨[b], _, later, by simp [encoded], rfl, (endsIn_last last).mpr ⟨b, rfl, inside, rfl⟩⟩
        · next owed owes =>
          obtain ⟨more, c, later, rfl, rfl, ends⟩ := ih read
          exact ⟨b :: more, c, later, rfl, rfl, (endsIn_owing owes).mpr ⟨b, more, rfl, inside, ends⟩⟩
      · cases read

/-- Bytes can be read exactly if they are the encoding of a text, and they are read as that text. -/
theorem decode_eq_ok {bytes : Bytes} {s : List Char} : decode bytes = .ok s ↔ bytes = encode s := by
  constructor
  · exact spells_of_decodeFrom
  · rintro rfl
    exact decodeFrom_encode s 0

theorem decode_encode (s : List Char) : decode (encode s) = .ok s := decode_eq_ok.mpr rfl

/-- No byte of a character above ASCII is ASCII. -/
theorem high_of_encodeChar {c : Char} (high : ¬ c.toNat < 128) :
    ∀ b ∈ String.utf8EncodeChar c, ¬ b < 0x80 := by
  have valid := toNat_valid c
  have value : c.val.toNat = c.toNat := rfl
  simp only [String.utf8EncodeChar, value, UInt8.lt_iff_toNat_lt, UInt8.reduceToNat]
  split
  · omega
  · split
    · simp
      omega
    · split <;> simp <;> omega

/-- Bytes that end like an ASCII text are the encoding of a text that ends in it. -/
theorem exists_of_encode_append {s text : List Char} (ascii : Ascii s) {front : Bytes}
    (same : encode text = front ++ encode s) :
    ∃ before, text = before ++ s ∧ front = encode before := by
  induction s using List.reverseRecOn generalizing text with
  | nil => exact ⟨text, by simp, by simpa [encode] using same.symm⟩
  | append_singleton s c ih =>
    have small : c.toNat < 128 := ascii c (by simp)
    have last : encode [c] = [UInt8.ofNat c.toNat] := by simp [encode, encodeChar_ascii small]
    obtain rfl | ⟨text, d, rfl⟩ := List.eq_nil_or_concat text
    · simp [encode] at same
    by_cases low : d.toNat < 128
    · have own : encode [d] = [UInt8.ofNat d.toNat] := by simp [encode, encodeChar_ascii low]
      simp only [List.concat_eq_append, encode_append, last, own, ← List.append_assoc] at same
      obtain ⟨shorter, bytes⟩ := List.append_inj' same rfl
      obtain ⟨before, rfl, whole⟩ := ih (ascii.cut (List.prefix_append _ _)) shorter
      have chars : d = c := byte_injective low small (List.singleton_inj.mp bytes)
      exact ⟨before, by simp [chars], whole⟩
    · -- the last byte of the character would be an ASCII byte
      obtain ⟨first, b, shape⟩ :=
        (List.eq_nil_or_concat (String.utf8EncodeChar d)).resolve_left String.utf8EncodeChar_ne_nil
      have own : encode [d] = first ++ [b] := by simp [encode, shape]
      simp only [List.concat_eq_append, encode_append, last, own, ← List.append_assoc] at same
      have bytes := List.singleton_inj.mp (List.append_inj' same rfl).2
      have high := high_of_encodeChar low b (by simp [shape])
      exact absurd (byte_low small) (bytes ▸ high)

end PageJournal.Text.Utf8
