import PageJournal.Trailing
/-!
Blank characters: the Unicode property White_Space, and trimming by it.
-/
namespace PageJournal.Text

/-- A character of the Unicode property White_Space. -/
def isBlank (c : Char) : Bool :=
  let n := c.toNat
  (0x9 ≤ n && n ≤ 0xD) || n == 0x20 || n == 0x85 || n == 0xA0 || n == 0x1680 ||
    (0x2000 ≤ n && n ≤ 0x200A) || n == 0x2028 || n == 0x2029 || n == 0x202F || n == 0x205F ||
    n == 0x3000

/-- The text without the blanks at its end. -/
def trimEnd (s : List Char) : List Char := dropTrailing isBlank s

/-- Whether nothing is left once the blanks are trimmed. -/
def allBlank (s : List Char) : Bool := s.all isBlank

theorem trimEnd_eq_nil {s : List Char} : trimEnd s = [] ↔ allBlank s = true := by
  simp [trimEnd, allBlank, dropTrailing_eq_nil]

end PageJournal.Text
