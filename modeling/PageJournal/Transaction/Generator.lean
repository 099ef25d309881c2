import PageJournal.Random.Stream
import PageJournal.Transaction.Basic
/-!
Random transactions, reproducible from a seed. Operations and pages are equally likely. What an
insert or update writes begins with its transaction's tag, and is filled up with letters and digits.
-/
namespace PageJournal

structure Generator where
  stream : Random.Stream
  /-- Pages below it are chosen; one at least. -/
  pageCount : PageId
  payloadSize : Nat
  deriving DecidableEq, Repr

namespace Generator

/-- The generator of a seed. Without a seed the choices are unspecified. -/
def create (seed : Option UInt64) (pageCount : PageId) (payloadSize : Nat) : Generator :=
  ⟨Random.Stream.ofSeed (seed.getD 0), if pageCount = 0 then 1 else pageCount, payloadSize⟩

def operation (g : Generator) : Log.Operation × Generator :=
  let (n, stream) := g.stream.below .wide Log.Operation.all.length
  (Log.Operation.all.getD n .select, { g with stream })

def page (g : Generator) : PageId × Generator :=
  let (n, stream) := g.stream.below .narrow g.pageCount.toNat
  (UInt32.ofNat n, { g with stream })

/-- What an operation of a transaction writes. -/
def payload (g : Generator) (id : UInt64) : Log.Operation → Bytes × Generator
  | .select | .delete => ([], g)
  | .insert | .update =>
    let tag := Transaction.tag id
    let (filler, stream) := g.stream.alphanumericText (g.payloadSize - tag.length)
    (tag ++ Text.Utf8.encode filler, { g with stream })

/-- Chooses a transaction of the given identity. -/
def transaction (g : Generator) (id : UInt64) (thread : UInt32) (lsn : UInt64) :
    Transaction × Generator :=
  let (operation, g) := g.operation
  let (page, g) := g.page
  let (payload, g) := g.payload id operation
  ({ id, thread, operation, page, payload, lsn, committed := false }, g)

end Generator

end PageJournal
