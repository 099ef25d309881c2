import PageJournal.Volume.Walk
/-!
The calls on a volume: opening, reading, appending, renaming, and taking away. Each either changes
the volume or tells why it was refused.
-/
namespace PageJournal.Volume

/-- Opens what a way leads to for reading. A device has nothing to read. -/
def openRead (v : Volume) (r : Route) : Except IoFault Source := do
  match v.entry? (← v.follow r) with
  | none => .error .notFound
  | some (.file _ reversed) => .ok (.bytes reversed.reverse)
  | some .directory => .ok .directory
  | some (.link _) => .error .tooManyLinks
  | some (.device _) => .ok (.bytes [])

def read (v : Volume) (r : Route) : Except IoFault Bytes := do (← v.openRead r).read

/-- Makes an empty file under a place where nothing stands. -/
def addFile (v : Volume) (place : Path) : Handle × Volume :=
  (.file v.nextIdentity,
    { v.put place (.file v.nextIdentity []) with nextIdentity := v.nextIdentity + 1 })

/-- Opens a file for writing, and makes it if it is missing. -/
def openWrite (truncate : Bool) (v : Volume) (r : Route) : Except IoFault (Handle × Volume) := do
  let place ← v.reach .writing r
  match v.entry? place with
  | none => .ok (v.addFile place)
  | some (.file identity _) =>
    .ok (.file identity, if truncate then v.put place (.file identity []) else v)
  | some .directory => .error .isDirectory
  | some (.link _) => .error .tooManyLinks
  | some (.device d) => .ok (.device d, v)

def openAppend (v : Volume) (r : Route) : Except IoFault (Handle × Volume) := openWrite false v r

/-- Opens a file and drops what it held. -/
def openTruncate (v : Volume) (r : Route) : Except IoFault (Handle × Volume) := openWrite true v r

/-- Appends to an open file. Appending no bytes always succeeds. -/
def append (v : Volume) (h : Handle) (bytes : Bytes) : Except IoFault Volume :=
  match h with
  | .file identity =>
    .ok { v with entries := v.entries.map fun (p, e) => (p, e.extended identity bytes) }
  | .device .null => .ok v
  | .device .full => if bytes.isEmpty then .ok v else .error .noSpace

/-- Makes an open file durable. A device keeps nothing and refuses. -/
def sync (h : Handle) : Except IoFault Unit :=
  match h with
  | .file _ => .ok ()
  | .device _ => .error .notSupported

/-- Renames a file over another name. What stood under the new name is gone. -/
def rename (v : Volume) (old new : Path) : Except IoFault Volume := do
  let source ← v.locate old
  let target ← v.locate new
  match v.entry? source with
  | none => .error .notFound
  | some .directory => .error .notSupported
  | some e =>
    if v.isDirectoryAt target then .error .isDirectory
    else .ok ((v.erase source).put target e)

/-- Takes a name away that is not a directory. -/
def removeFile (v : Volume) (r : Route) : Except IoFault Volume := do
  let place ← v.locate r
  match v.entry? place with
  | none => .error .notFound
  | some .directory => .error .isDirectory
  | some _ => if r.slash then .error .notDirectory else .ok (v.erase place)

def createDirectory (v : Volume) (r : Route) : Except IoFault Volume := do
  let place ← v.locate r
  match v.entry? place with
  | none => .ok (v.put place .directory)
  | some _ => .error .alreadyExists

/-- Makes every directory on a path that is missing. -/
def createDirectories (v : Volume) (p : Path) : Except IoFault Volume :=
  (List.range p.length).foldlM (fun v n =>
    let part := p.take (n + 1)
    match v.find? part with
    | some .directory => .ok v
    | some _ => .error (if n + 1 = p.length then .alreadyExists else .notDirectory)
    | none => v.createDirectory part) v

/-- Takes an empty directory away. -/
def removeDirectory (v : Volume) (r : Route) : Except IoFault Volume := do
  let place ← v.locate r
  match v.entry? place with
  | none => .error .notFound
  | some .directory =>
    if !r.endsInEntry then .error .notSupported
    else if (v.children place).isEmpty then .ok (v.erase place)
    else .error .notEmpty
  | some _ => .error .notDirectory

def createLink (v : Volume) (r : Route) (target : Route) : Except IoFault Volume := do
  let place ← v.locate r
  match v.entry? place with
  | none => if r.slash then .error .notFound else .ok (v.put place (.link target))
  | some _ => .error .alreadyExists

/-- Replaces all bytes of a file, and makes it if it is missing. -/
def writeFile (v : Volume) (r : Route) (bytes : Bytes) : Except IoFault Volume := do
  let (h, v) ← v.openTruncate r
  v.append h bytes

def syncDirectory (v : Volume) (p : Path) : Except IoFault Unit := do
  match v.entry? (← v.follow p) with
  | none => .error .notFound
  | some _ => .ok ()

end PageJournal.Volume
