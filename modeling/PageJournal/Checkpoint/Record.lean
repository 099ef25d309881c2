import PageJournal.Fault
import PageJournal.Text.Blank
import PageJournal.Text.Decimal
import PageJournal.Text.Quoted
import PageJournal.Text.Utf8
/-!
Records of the checkpoint log, one line of text each:

    CHECKPOINT|TS:1718000000000|THREAD:2|DIRTY:3|LSN:14

Reading is laxer than writing: what follows the fourth field is passed over, and the thread keeps
the low 32 bits of its number.
-/
namespace PageJournal.Checkpoint

structure Record where
  /-- Milliseconds since 1970 when the record was made. -/
  timestamp : UInt64
  thread : UInt32
  /-- How many pages were dirty when the cycle began. -/
  dirtyPages : UInt64
  /-- The last log sequence number handed out when the pages were durable. -/
  watermark : UInt64
  deriving DecidableEq, Repr

namespace Record

def heading : List Char := "CHECKPOINT".toList

/-- The text of a number behind its label. -/
def labelled (label : String) (n : Nat) : List Char := label.toList ++ Text.decimal n

/-- The line of a record, without its end. -/
def render (r : Record) : List Char :=
  ['|'].intercalate
    [heading, labelled "TS:" r.timestamp.toNat, labelled "THREAD:" r.thread.toNat,
      labelled "DIRTY:" r.dirtyPages.toNat, labelled "LSN:" r.watermark.toNat]

/-- The number of the next field, and the fields behind it. -/
def takeNumber (label : String) : List (List Char) → Option (UInt64 × List (List Char))
  | [] => none
  | text :: rest => do
    let n ← Text.word64 (← label.toList.isPrefixOf? text)
    some (n, rest)

/-- The record of a line. Blanks at its end do not count. -/
def parse (line : List Char) : Option Record :=
  match (Text.trimEnd line).splitOn '|' with
  | [] => none
  | first :: texts =>
    if first = heading then do
      let (timestamp, texts) ← takeNumber "TS:" texts
      let (thread, texts) ← takeNumber "THREAD:" texts
      let (dirtyPages, texts) ← takeNumber "DIRTY:" texts
      let (watermark, _) ← takeNumber "LSN:" texts
      some { timestamp, thread := thread.toUInt32, dirtyPages, watermark }
    else none

/-- The record of a line, or the complaint about it. -/
def read (line : List Char) : Except Fault Record :=
  match parse line with
  | some r => .ok r
  | none =>
    .error (.logCorruption s!"Invalid checkpoint line: {String.ofList (Text.quoted line)}")

/-- The bytes of a record's line, with its end. -/
def line (r : Record) : Bytes := Text.Utf8.encode (r.render ++ ['\n'])

end Record

end PageJournal.Checkpoint
