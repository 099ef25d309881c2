import PageJournal.Fault
import PageJournal.Text.Blank
import PageJournal.Text.Decimal
import PageJournal.Text.Quoted
/-!
Records of the log, one line of text each:

    TXN:7|LSN:13|THREAD:2|OP:UPDATE|PAGE:4|SIZE:256|TS:1718000000000|COMMITTED:NO

`render` writes a line, `parse` reads one and tells what is wrong with any other.
-/
namespace PageJournal.Log

/-- What a transaction does to its page. -/
inductive Operation where
  | select
  | insert
  | update
  | delete
  deriving DecidableEq, Repr

namespace Operation

/-- All operations, in the order in which random choices count them. -/
def all : List Operation := [select, insert, update, delete]

def isWrite : Operation → Bool
  | select => false
  | insert | update | delete => true

def name : Operation → String
  | select => "SELECT"
  | insert => "INSERT"
  | update => "UPDATE"
  | delete => "DELETE"

def ofName? (s : List Char) : Option Operation := all.find? fun o => o.name.toList == s

theorem ofName?_name (o : Operation) : ofName? o.name.toList = some o := by cases o <;> decide

end Operation

structure Record where
  transaction : UInt64
  lsn : UInt64
  thread : UInt32
  operation : Operation
  page : PageId
  /-- The length of the payload. -/
  size : UInt64
  /-- Milliseconds since 1970 when the record was made. -/
  timestamp : UInt64
  /-- False before the operation is applied, true after it is committed. -/
  committed : Bool
  deriving DecidableEq, Repr

/-- The fields of a line, in their order. -/
inductive Field where
  | transaction
  | lsn
  | thread
  | operation
  | page
  | size
  | timestamp
  | committed
  deriving DecidableEq, Repr

def Field.label : Field → String
  | transaction => "TXN"
  | lsn => "LSN"
  | thread => "THREAD"
  | operation => "OP"
  | page => "PAGE"
  | size => "SIZE"
  | timestamp => "TS"
  | committed => "COMMITTED"

inductive LineFault where
  | missing (field : Field) (line : List Char)
  | misplaced (field : Field) (found : List Char)
  | badNumber (field : Field) (value : List Char)
  | unknownOperation (name : List Char)
  | badCommitted (value : List Char)
  | trailing (line : List Char)
  deriving DecidableEq, Repr

def LineFault.message : LineFault → String
  | .missing field line =>
    s!"Missing {field.label} field in {String.ofList (Text.quoted line)}"
  | .misplaced field found =>
    s!"Expected {field.label} field, got {String.ofList (Text.quoted found)}"
  | .badNumber field value =>
    s!"Invalid {field.label} value: {String.ofList (Text.quoted value)}"
  | .unknownOperation name => s!"Unknown operation: {String.ofList name}"
  | .badCommitted value => s!"Invalid COMMITTED value: {String.ofList value}"
  | .trailing line => s!"Trailing fields in {String.ofList (Text.quoted line)}"

namespace Record

/-- The text of one field with its label. -/
def labelled (field : Field) (value : List Char) : List Char :=
  field.label.toList ++ ':' :: value

def flag (committed : Bool) : List Char := if committed then "YES".toList else "NO".toList

/-- The fields of a record as text, in their order. -/
def fields (r : Record) : List (List Char) :=
  [labelled .transaction (Text.decimal r.transaction.toNat),
    labelled .lsn (Text.decimal r.lsn.toNat),
    labelled .thread (Text.decimal r.thread.toNat),
    labelled .operation r.operation.name.toList,
    labelled .page (Text.decimal r.page.toNat),
    labelled .size (Text.decimal r.size.toNat),
    labelled .timestamp (Text.decimal r.timestamp.toNat),
    labelled .committed (flag r.committed)]

/-- The line of a record, without its end. -/
def render (r : Record) : List Char := ['|'].intercalate r.fields

/-- What stands behind the label and its colon, if the text begins so. -/
def value? (field : Field) (text : List Char) : Option (List Char) :=
  (field.label.toList ++ [':']).isPrefixOf? text

/-- The value of the next field, and the fields behind it. -/
def takeField (line : List Char) (field : Field) :
    List (List Char) → Except LineFault (List Char × List (List Char))
  | [] => .error (.missing field line)
  | text :: rest =>
    match value? field text with
    | some value => .ok (value, rest)
    | none => .error (.misplaced field text)

/-- The value of the next field as a 64-bit number. -/
def takeWord64 (line : List Char) (field : Field) (texts : List (List Char)) :
    Except LineFault (UInt64 × List (List Char)) := do
  let (value, rest) ← takeField line field texts
  match Text.word64 value with
  | some n => .ok (n, rest)
  | none => .error (.badNumber field value)

/-- The value of the next field as a 32-bit number. -/
def takeWord32 (line : List Char) (field : Field) (texts : List (List Char)) :
    Except LineFault (UInt32 × List (List Char)) := do
  let (value, rest) ← takeField line field texts
  match Text.word32 value with
  | some n => .ok (n, rest)
  | none => .error (.badNumber field value)

def takeOperation (line : List Char) (texts : List (List Char)) :
    Except LineFault (Operation × List (List Char)) := do
  let (value, rest) ← takeField line .operation texts
  match Operation.ofName? value with
  | some operation => .ok (operation, rest)
  | none => .error (.unknownOperation value)

def takeFlag (line : List Char) (texts : List (List Char)) :
    Except LineFault (Bool × List (List Char)) := do
  let (value, rest) ← takeField line .committed texts
  if value = flag true then .ok (true, rest)
  else if value = flag false then .ok (false, rest)
  else .error (.badCommitted value)

/-- The record of a line. Blanks at its end do not count. -/
def parse (line : List Char) : Except LineFault Record := do
  let texts := (Text.trimEnd line).splitOn '|'
  let (transaction, texts) ← takeWord64 line .transaction texts
  let (lsn, texts) ← takeWord64 line .lsn texts
  let (thread, texts) ← takeWord32 line .thread texts
  let (operation, texts) ← takeOperation line texts
  let (page, texts) ← takeWord32 line .page texts
  let (size, texts) ← takeWord64 line .size texts
  let (timestamp, texts) ← takeWord64 line .timestamp texts
  let (committed, texts) ← takeFlag line texts
  if texts.isEmpty then
    .ok { transaction, lsn, thread, operation, page, size, timestamp, committed }
  else .error (.trailing line)

/-- The record of a line, or the complaint about it. -/
def read (line : List Char) : Except Fault Record :=
  (parse line).mapError fun cause => .logCorruption cause.message

end Record

end PageJournal.Log
