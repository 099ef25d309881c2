import PageJournal.Text.Unprintable
/-!
Quoted text: how a message shows the line or field that it complains about. Double quotes and
backslashes are escaped, the five common control characters have a letter, and other unprintable
characters are written by their number in braces. A single quote stands for itself.
-/
namespace PageJournal.Text

/-- A number in lower-case hexadecimal digits. -/
def hexadecimal (n : Nat) : List Char := Nat.toDigits 16 n

/-- One character inside a quotation. -/
def escape (c : Char) : List Char :=
  if c = '\x00' then ['\\', '0']
  else if c = '\t' then ['\\', 't']
  else if c = '\r' then ['\\', 'r']
  else if c = '\n' then ['\\', 'n']
  else if c = '"' then ['\\', '"']
  else if c = '\\' then ['\\', '\\']
  else if isUnprintable c then ['\\', 'u', '{'] ++ hexadecimal c.toNat ++ ['}']
  else [c]

/-- The text between double quotes, every character escaped as needed. -/
def quoted (s : List Char) : List Char := '"' :: s.flatMap escape ++ ['"']

end PageJournal.Text
