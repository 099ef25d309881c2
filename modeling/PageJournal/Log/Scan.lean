import PageJournal.Log.Record
import PageJournal.Text.Utf8
/-!
Reading a log line by line. A line ends with its line feed; the last one may lack it. Blank lines
are passed over, and a damaged line does not stop the reader.
-/
namespace PageJournal.Log

def lineFeed : UInt8 := 0x0A

/-- The lines of a byte string, each with its end if it has one. -/
def lines (bytes : Bytes) : List Bytes :=
  bytes.foldr (fun b ls =>
    if b = lineFeed then [b] :: ls
    else match ls with
      | [] => [[b]]
      | l :: ls => (b :: l) :: ls) []

inductive Damage where
  | notUtf8 (cause : Text.Utf8.Malformed)
  | notRecord (cause : LineFault)
  deriving DecidableEq, Repr

def Damage.message : Damage → String
  | .notUtf8 cause => s!"line is not valid UTF-8: {cause.message}"
  | .notRecord cause => cause.message

/-- What one line of a log holds. -/
inductive Item where
  | record (r : Record)
  | damaged (cause : Damage)
  deriving DecidableEq, Repr

/-- The record of a line, or what is wrong with it. -/
def Item.ofText (line : List Char) : Item :=
  match Record.parse line with
  | .ok r => .record r
  | .error cause => .damaged (.notRecord cause)

/-- The item of a line; a blank line has none. -/
def Item.ofLine? (line : Bytes) : Option Item :=
  match Text.Utf8.decode line with
  | .error cause => some (.damaged (.notUtf8 cause))
  | .ok text => if Text.allBlank text then none else some (.ofText text)

def Item.record? : Item → Option Record
  | .record r => some r
  | .damaged _ => none

/-- A place in a log that is being read. -/
structure Reader where
  unread : List Bytes
  /-- How many lines were read. -/
  lineNumber : Nat
  deriving DecidableEq, Repr

namespace Reader

def ofBytes (bytes : Bytes) : Reader := ⟨lines bytes, 0⟩

/-- The item of the next line that has one; nothing at the end of the log. -/
def nextFrom (lineNumber : Nat) : List Bytes → Option Item × Reader
  | [] => (none, ⟨[], lineNumber⟩)
  | line :: rest =>
    match Item.ofLine? line with
    | some item => (some item, ⟨rest, lineNumber + 1⟩)
    | none => nextFrom (lineNumber + 1) rest

def next (r : Reader) : Option Item × Reader := nextFrom r.lineNumber r.unread

/-- Reads to the end, at most so many items: what each call gives, and the line number after it. -/
def traceUpTo : Nat → Reader → List (Option Item × Nat)
  | 0, _ => []
  | limit + 1, r =>
    match r.next with
    | (some item, r) => (some item, r.lineNumber) :: traceUpTo limit r
    | (none, r) => [(none, r.lineNumber)]

/-- What each call gives until the end of the log, the end included. -/
def trace (r : Reader) : List (Option Item × Nat) := r.traceUpTo (r.unread.length + 1)

end Reader

/-- The items of a log in file order. -/
def items (bytes : Bytes) : List Item := (lines bytes).filterMap Item.ofLine?

/-- The records of a log, if no line is damaged. -/
def records (bytes : Bytes) : Except Damage (List Record) :=
  (items bytes).mapM fun
    | .record r => .ok r
    | .damaged cause => .error cause

end PageJournal.Log
