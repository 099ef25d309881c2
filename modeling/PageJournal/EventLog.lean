import PageJournal.Volume.Calls
/-!
The event log: one line per noteworthy event, for people. Lines wait in memory until they are
flushed. Nothing depends on them, so a line that cannot be written is kept back and no one is told.
-/
namespace PageJournal

def textBytes (text : String) : Bytes := Text.Utf8.encode text.toList

/-- Lines are pushed to the file at the latest when so many bytes wait. -/
def EventLog.capacity : Nat := 8192

structure EventLog where
  file : Handle
  /-- The texts that wait to be written, in order; a line is made of several. -/
  pending : List String
  deriving DecidableEq, Repr

namespace EventLog

/-- Opens the log behind what it already holds. -/
def openAt (v : Volume) (p : Path) : Except IoFault (EventLog × Volume) := do
  let (file, v) ← v.openAppend p
  .ok (⟨file, []⟩, v)

/-- Enters an event: the time, who reports it, and what happened. -/
def record (log : EventLog) (now : UInt64) (component message : String) : EventLog :=
  { log with pending := log.pending ++ [toString now, " [", component, "] ", message, "\n"] }

def flush (log : EventLog) (v : Volume) : EventLog × Volume :=
  if log.pending.isEmpty then (log, v)
  else match v.append log.file (textBytes (String.join log.pending)) with
    | .ok v => ({ log with pending := [] }, v)
    | .error _ => (log, v)

/-- The texts that no longer fit in memory, and those that still do: a text that would exceed the
capacity pushes out all that wait before it, and goes to the file itself if it fills the memory. -/
def overflow (pushed waiting : List String) (size : Nat) : List String → List String × List String
  | [] => (pushed, waiting)
  | text :: rest =>
    let length := text.utf8ByteSize
    if capacity ≤ length then overflow (pushed ++ waiting ++ [text]) [] 0 rest
    else if size + length ≤ capacity then overflow pushed (waiting ++ [text]) (size + length) rest
    else overflow (pushed ++ waiting) [text] length rest

/-- Writes what does not fit in memory. -/
def spill (log : EventLog) (v : Volume) : EventLog × Volume :=
  let (pushed, waiting) := overflow [] [] 0 log.pending
  if pushed.isEmpty then (log, v)
  else match v.append log.file (textBytes (String.join pushed)) with
    | .ok v => ({ log with pending := waiting }, v)
    | .error _ => (log, v)

end EventLog

end PageJournal
