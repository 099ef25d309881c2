import PageJournal.Log.Recovery
import PageJournal.Volume.Calls
/-!
Logs as files of a volume. A missing file is an empty log to recovery, and an error to a reader.
-/
namespace PageJournal.Log

/-- Turns a refused call into a failure of the operation. -/
def orFault {α : Type} : Except IoFault α → Except Fault α := Except.mapError Fault.io

/-- The records of a log file, if no line is damaged. -/
def recordsAt (v : Volume) (p : Path) : Except Fault (List Record) := do
  let bytes ← orFault (v.read p)
  (records bytes).mapError fun damage => .logCorruption damage.message

/-- The records that survive in a log file, and its summary. -/
def recoverAt (v : Volume) (p : Path) : Except Fault (List Record × Summary) :=
  if v.contains p then (orFault (v.read p)).map recover else .ok ([], {})

def verifyAt (v : Volume) (p : Path) : Except Fault Summary := (recoverAt v p).map (·.2)

end PageJournal.Log
