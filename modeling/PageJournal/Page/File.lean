import PageJournal.Chunks
import PageJournal.Page.Name
import PageJournal.Volume.Calls
/-!
Replacing a page file. The new bytes gather in a temporary file, chunk by chunk, and are renamed
over the page file at the end, so that the page file holds either its old bytes or its new ones
after any number of these calls. The environment may refuse any of them.
-/
namespace PageJournal

inductive FileCall where
  | create
  | append (index : Nat)
  | sync
  | rename
  | syncDirectory
  | discard
  deriving DecidableEq, Repr

/-- The calls that the environment refuses during one replacement, beyond those that the state of
the volume rules out. -/
abbrev Trouble := FileCall → Option IoFault

def Trouble.none : Trouble := fun _ => Option.none

/-- How many bytes one append takes. -/
def chunkSize : Nat := 512

/-- A call and what it does to the volume. -/
abbrev FileStep := FileCall × (Volume → Except IoFault Volume)

namespace Volume

/-- The file that a path leads to, as if it were still open. -/
def handleAt (p : Path) (v : Volume) : Except IoFault Handle := do
  match v.entry? (← v.follow p) with
  | some (.file identity _) => .ok (.file identity)
  | some (.device d) => .ok (.device d)
  | some .directory => .error .isDirectory
  | some (.link _) => .error .tooManyLinks
  | Option.none => .error .notFound

def appendAt (p : Path) (bytes : Bytes) (v : Volume) : Except IoFault Volume := do
  v.append (← v.handleAt p) bytes

def syncAt (p : Path) (v : Volume) : Except IoFault Volume := do
  Volume.sync (← v.handleAt p)
  .ok v

/-- The path beside `file` where its new bytes gather. -/
def temporaryPath (file : Path) : Path :=
  file.parent.child (PageName.temporary (file.getLast?.getD ""))

/-- Carries out calls until one is refused, and tells what was done up to there. -/
def perform (t : Trouble) : List FileStep → Volume → Except IoFault Unit × Volume
  | [], v => (.ok (), v)
  | (call, act) :: rest, v =>
    match t call with
    | some cause => (.error cause, v)
    | Option.none =>
      match act v with
      | .error cause => (.error cause, v)
      | .ok v => perform t rest v

/-- The calls up to the rename. -/
def installSteps (file : Path) (bytes : Bytes) (durable : Bool) : List FileStep :=
  let temporary := temporaryPath file
  let create : FileStep := (.create, fun v => (v.openTruncate temporary).map (·.2))
  let appends : List FileStep :=
    (chunks chunkSize bytes).mapIdx fun index chunk => (.append index, appendAt temporary chunk)
  let sync : List FileStep := if durable then [(.sync, syncAt temporary)] else []
  let rename : FileStep := (.rename, fun v => v.rename temporary file)
  create :: appends ++ sync ++ [rename]

/-- Makes the rename itself durable. -/
def settleSteps (file : Path) (durable : Bool) : List FileStep :=
  if durable then [(.syncDirectory, fun v => (v.syncDirectory file.parent).map fun _ => v)] else []

/-- Takes the temporary file away after a failure. -/
def discardSteps (file : Path) : List FileStep :=
  [(.discard, fun v => v.removeFile (temporaryPath file))]

/-- Replaces the bytes of a file. A failure before the rename leaves the file alone and discards
what has gathered. -/
def replace (t : Trouble) (file : Path) (bytes : Bytes) (durable : Bool) (v : Volume) :
    Except IoFault Unit × Volume :=
  match v.perform t (installSteps file bytes durable) with
  | (.ok _, v) => v.perform t (settleSteps file durable)
  | (.error cause, v) => (.error cause, (v.perform t (discardSteps file)).2)

end Volume

end PageJournal
