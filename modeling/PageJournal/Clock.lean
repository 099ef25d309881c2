/-!
The time that records and events are stamped with: a source of readings, each taken once.
-/
namespace PageJournal

/-- A clock and how often it was read. -/
structure Clock where
  /-- Milliseconds since 1970 at each reading. -/
  reading : Nat → UInt64
  taken : Nat := 0

namespace Clock

def now (c : Clock) : UInt64 × Clock := (c.reading c.taken, { c with taken := c.taken + 1 })

def still (time : UInt64) : Clock := ⟨fun _ => time, 0⟩

end Clock

end PageJournal
