import PageJournal.Fault
import PageJournal.Text.Utf8
import PageJournal.Trailing
/-!
Pages: blocks of one fixed size. A payload is stored at the start of its page, with zero bytes
behind; taking the zero bytes away gives it back, unless it ends in zero bytes itself.
-/
namespace PageJournal

def trimPadding (bytes : Bytes) : Bytes := dropTrailing (· == 0) bytes

/-- A payload with zero bytes behind it up to the page size. -/
def padded (pageSize : Nat) (payload : Bytes) : Bytes :=
  payload ++ List.replicate (pageSize - payload.length) 0

theorem length_padded {pageSize : Nat} {payload : Bytes} (fits : payload.length ≤ pageSize) :
    (padded pageSize payload).length = pageSize := by
  simp only [padded, List.length_append, List.length_replicate]
  omega

/-- A page and whether it was changed since it was last made durable. -/
structure Page where
  id : PageId
  bytes : Bytes
  dirty : Bool
  deriving DecidableEq, Repr

namespace Page

def zeroed (id : PageId) (pageSize : Nat) : Page := ⟨id, List.replicate pageSize 0, false⟩

def ofPayload (id : PageId) (payload : Bytes) (pageSize : Nat) : Except Fault Page :=
  if pageSize < payload.length then .error (.payloadTooLarge payload.length pageSize)
  else .ok ⟨id, padded pageSize payload, true⟩

/-- What the page holds before its padding. -/
def payload (p : Page) : Bytes := trimPadding p.bytes

def isZeroed (p : Page) : Bool := p.bytes.all (· == 0)

end Page

end PageJournal
