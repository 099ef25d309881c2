import PageJournal.Log.Record
import PageJournal.Text.Utf8
/-!
Transactions. One touches exactly one page, and only its two log records are kept. The payload of a
generated write begins with a tag that names its transaction: `txn=42;`.
-/
namespace PageJournal

structure Transaction where
  id : UInt64
  thread : UInt32
  operation : Log.Operation
  page : PageId
  /-- What the operation writes. -/
  payload : Bytes
  /-- The sequence number of its first record. -/
  lsn : UInt64
  committed : Bool
  deriving DecidableEq, Repr

namespace Transaction

/-- The log record of the transaction as it stands. -/
def record (t : Transaction) (lsn now : UInt64) : Log.Record where
  transaction := t.id
  lsn := lsn
  thread := t.thread
  operation := t.operation
  page := t.page
  size := UInt64.ofNat t.payload.length
  timestamp := now
  committed := t.committed

/-- The transaction once its operation has been applied. -/
def commit (t : Transaction) : Transaction := { t with committed := true }

def tagStart : Bytes := Text.Utf8.encode "txn=".toList

def tagEnd : UInt8 := 0x3B

def tag (id : UInt64) : Bytes :=
  tagStart ++ Text.Utf8.encode (Text.decimal id.toNat) ++ [tagEnd]

/-- The transaction that the tag at the start of a payload names. -/
def ofTag? (payload : Bytes) : Option UInt64 := do
  let rest ← tagStart.isPrefixOf? payload
  let digits := rest.takeWhile (· != tagEnd)
  if digits.length = rest.length then none
  else
    match Text.Utf8.decode digits with
    | .ok text => Text.word64 text
    | .error _ => none

end Transaction

end PageJournal
