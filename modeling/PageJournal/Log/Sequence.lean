/-!
Log sequence numbers. A number is handed out once, in ascending order, until the 64-bit word
wraps; the durable mark never falls.
-/
namespace PageJournal.Log

/-- The numbers handed out so far and the highest one known to be on disk. -/
structure Sequence where
  next : UInt64
  durable : UInt64
  deriving DecidableEq, Repr

namespace Sequence

/-- Hands out numbers from `first` on; zero is never handed out first. -/
def startingAt (first : UInt64) : Sequence :=
  let first := if first = 0 then 1 else first
  ⟨first, first - 1⟩

def allocate (s : Sequence) : UInt64 × Sequence := (s.next, { s with next := s.next + 1 })

def current (s : Sequence) : UInt64 := s.next - 1

def markDurable (s : Sequence) (lsn : UInt64) : Sequence :=
  { s with durable := max s.durable lsn }

@[simp] theorem next_allocate (s : Sequence) : s.allocate.2.next = s.next + 1 := rfl

@[simp] theorem durable_allocate (s : Sequence) : s.allocate.2.durable = s.durable := rfl

@[simp] theorem next_markDurable (s : Sequence) (lsn : UInt64) :
    (s.markDurable lsn).next = s.next := rfl

@[simp] theorem durable_markDurable (s : Sequence) (lsn : UInt64) :
    (s.markDurable lsn).durable = max s.durable lsn := rfl

end Sequence

end PageJournal.Log
