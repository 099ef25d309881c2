import PageJournal.Text.Utf8

/-! ASCII texts as bytes. Every ASCII character is one byte, so a text may be cut at any byte, and
each beginning of its bytes is the encoding of a beginning of the text. -/
namespace PageJournal.Text

/-- Every character is ASCII. -/
def Ascii (s : List Char) : Prop := ∀ c ∈ s, c.toNat < 128

instance (s : List Char) : Decidable (Ascii s) := List.decidableBAll (fun c : Char => c.toNat < 128) s

theorem Ascii.append {s t : List Char} (hs : Ascii s) (ht : Ascii t) : Ascii (s ++ t) := by
  intro c hc
  rcases List.mem_append.mp hc with hc | hc
  · exact hs c hc
  · exact ht c hc

theorem Ascii.cut {s t : List Char} (ht : Ascii t) (h : s <+: t) : Ascii s :=
  fun c hc => ht c (h.subset hc)

namespace Utf8

theorem encode_append (s t : List Char) : encode (s ++ t) = encode s ++ encode t :=
  List.flatMap_append

theorem encodeChar_ascii {c : Char} (small : c.toNat < 128) :
    String.utf8EncodeChar c = [UInt8.ofNat c.toNat] := by
  have le : c.val.toNat ≤ 127 := Nat.le_of_lt_succ small
  unfold String.utf8EncodeChar
  exact if_pos le

theorem encode_ascii {s : List Char} (ascii : Ascii s) :
    encode s = s.map fun c => UInt8.ofNat c.toNat := by
  induction s with
  | nil => rfl
  | cons c rest ih =>
    have small : c.toNat < 128 := ascii c List.mem_cons_self
    have tail := ih fun d hd => ascii d (List.mem_cons_of_mem _ hd)
    unfold encode at tail ⊢
    rw [List.flatMap_cons, encodeChar_ascii small, tail]
    rfl

theorem length_encode {s : List Char} (ascii : Ascii s) : (encode s).length = s.length := by
  rw [encode_ascii ascii, List.length_map]

/-- The byte of an ASCII character gives the character back. -/
theorem ofNat_byte {c : Char} (small : c.toNat < 128) :
    Char.ofNat (UInt8.ofNat c.toNat).toNat = c := by
  have fits : c.toNat % 2 ^ 8 = c.toNat := Nat.mod_eq_of_lt (by omega)
  rw [UInt8.toNat_ofNat', fits]
  exact Char.ofNat_toNat c

theorem byte_injective {c d : Char} (hc : c.toNat < 128) (hd : d.toNat < 128)
    (same : UInt8.ofNat c.toNat = UInt8.ofNat d.toNat) : c = d := by
  rw [← ofNat_byte hc, same, ofNat_byte hd]

theorem byte_low {c : Char} (small : c.toNat < 128) : UInt8.ofNat c.toNat < 0x80 := by
  rw [UInt8.lt_iff_toNat_lt, UInt8.toNat_ofNat', Nat.mod_eq_of_lt (by omega)]
  exact small

/-- Cutting the bytes of an ASCII text cuts the text. -/
theorem take_encode {s : List Char} (ascii : Ascii s) (n : Nat) :
    (encode s).take n = encode (s.take n) := by
  have cut : Ascii (s.take n) := ascii.cut (List.take_prefix n s)
  rw [encode_ascii ascii, encode_ascii cut, List.map_take]

theorem exists_of_prefix_encode {s : List Char} (ascii : Ascii s) {bytes : Bytes}
    (h : bytes <+: encode s) : ∃ t, t <+: s ∧ bytes = encode t := by
  refine ⟨s.take bytes.length, List.take_prefix _ _, ?_⟩
  rw [← take_encode ascii]
  exact List.prefix_iff_eq_take.mp h

/-- A byte below 128 is in the encoding only as a character of the text. -/
theorem byte_mem_encode {s : List Char} (ascii : Ascii s) {c : Char} (small : c.toNat < 128) :
    UInt8.ofNat c.toNat ∈ encode s ↔ c ∈ s := by
  rw [encode_ascii ascii, List.mem_map]
  constructor
  · rintro ⟨d, hd, same⟩
    exact byte_injective (ascii d hd) small same ▸ hd
  · exact fun hc => ⟨c, hc, rfl⟩

end Utf8

end PageJournal.Text
