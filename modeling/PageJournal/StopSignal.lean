/-!
Cooperative stopping: a flag that is raised once, and that everything in the background looks at
between two units of work.
-/
namespace PageJournal

/-- Whether everything in the background has been asked to stop. -/
structure StopSignal where
  requested : Bool := false
  deriving DecidableEq, Repr

namespace StopSignal

def request (_ : StopSignal) : StopSignal := ⟨true⟩

/-- Sleeps through the given milliseconds unless the flag is raised, and tells whether it is. Nobody
else raises it meanwhile. -/
def wait (s : StopSignal) (_milliseconds : Nat) : Bool := s.requested

end StopSignal

end PageJournal
