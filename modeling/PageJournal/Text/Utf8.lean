/-!
UTF-8 on byte lists, read one byte at a time. A failure tells where the character that cannot be
completed begins, and how many bytes of it could still have been extended to a character.
-/
namespace PageJournal

/-- Bytes of a file or page. -/
abbrev Bytes := List UInt8

namespace Text.Utf8

/-- Why bytes are not UTF-8. -/
inductive Malformed where
  /-- The `width` bytes from `start` begin a character that what follows does not continue. -/
  | invalid (start width : Nat)
  /-- The input ends inside the character that begins at `start`. -/
  | incomplete (start : Nat)
  deriving DecidableEq, Repr

/-- A character of which some bytes are still owed. -/
structure Partial where
  /-- The index of its first byte. -/
  start : Nat
  /-- How many bytes of it were read. -/
  width : Nat
  /-- How many bytes are owed after the next one. -/
  owed : Nat
  /-- The bits read so far. -/
  value : Nat
  /-- The least and the greatest byte that may come next. -/
  low : UInt8
  high : UInt8

/-- The character that begins with a byte above ASCII. The range of the second byte excludes
overlong forms, surrogates and what exceeds U+10FFFF. -/
def lead (start : Nat) (b : UInt8) : Option Partial :=
  let opening (owed bits : Nat) (low high : UInt8) : Option Partial :=
    some ⟨start, 1, owed, b.toNat % bits, low, high⟩
  if b < 0xC2 then none
  else if b ≤ 0xDF then opening 0 32 0x80 0xBF
  else if b = 0xE0 then opening 1 16 0xA0 0xBF
  else if b = 0xED then opening 1 16 0x80 0x9F
  else if b ≤ 0xEF then opening 1 16 0x80 0xBF
  else if b = 0xF0 then opening 2 8 0x90 0xBF
  else if b ≤ 0xF3 then opening 2 8 0x80 0xBF
  else if b = 0xF4 then opening 2 8 0x80 0x8F
  else none

/-- The value with the six bits of one more byte. -/
def Partial.extended (p : Partial) (b : UInt8) : Nat := p.value * 64 + b.toNat % 64

/-- One byte further, with `owed` more to come. -/
def Partial.advance (p : Partial) (b : UInt8) (owed : Nat) : Partial :=
  { p with width := p.width + 1, owed, value := p.extended b, low := 0x80, high := 0xBF }

/-- The characters from the byte at `index` on, after the given beginning of a character. -/
def decodeFrom (index : Nat) : Option Partial → Bytes → Except Malformed (List Char)
  | none, [] => .ok []
  | some p, [] => .error (.incomplete p.start)
  | none, b :: rest =>
    if b < 0x80 then (decodeFrom (index + 1) none rest).map (Char.ofNat b.toNat :: ·)
    else match lead index b with
      | some p => decodeFrom (index + 1) (some p) rest
      | none => .error (.invalid index 1)
  | some p, b :: rest =>
    if p.low ≤ b ∧ b ≤ p.high then
      match p.owed with
      | 0 => (decodeFrom (index + 1) none rest).map (Char.ofNat (p.extended b) :: ·)
      | owed + 1 => decodeFrom (index + 1) (some (p.advance b owed)) rest
    else .error (.invalid p.start p.width)

def decode (bytes : Bytes) : Except Malformed (List Char) := decodeFrom 0 none bytes

def encode (s : List Char) : Bytes := s.flatMap String.utf8EncodeChar

def Malformed.message : Malformed → String
  | .invalid start width => s!"invalid utf-8 sequence of {width} bytes from index {start}"
  | .incomplete start => s!"incomplete utf-8 byte sequence from index {start}"

end Text.Utf8

end PageJournal
