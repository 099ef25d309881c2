/-!
Decimal numerals of unsigned words. Writing uses the fewest digits; reading takes one optional
plus sign and at least one ASCII digit, leading zeros included, and refuses what exceeds the word.
-/
namespace PageJournal.Text

/-- The shortest decimal numeral of a number. -/
def decimal (n : Nat) : List Char := Nat.toDigits 10 n

/-- The number that a run of ASCII digits denotes, where `seen` was read before. -/
def digitsFrom (seen : Nat) : List Char → Option Nat
  | [] => some seen
  | c :: rest => if c.isDigit then digitsFrom (10 * seen + (c.toNat - '0'.toNat)) rest else none

def digits : List Char → Option Nat
  | [] => none
  | c :: rest => digitsFrom 0 (c :: rest)

/-- A numeral: one optional plus sign before the digits. -/
def numeral : List Char → Option Nat
  | '+' :: rest => digits rest
  | s => digits s

def numeralBelow (bound : Nat) (s : List Char) : Option Nat :=
  (numeral s).filter (· < bound)

def word64 (s : List Char) : Option UInt64 := (numeralBelow UInt64.size s).map UInt64.ofNat

def word32 (s : List Char) : Option UInt32 := (numeralBelow UInt32.size s).map UInt32.ofNat

end PageJournal.Text
