import PageJournal.Text.Utf8
import PageJournal.Volume.Route
/-!
A volume: the tree of files, directories and links that a store lives on, as a value. A file keeps
its identity when its name goes away, so an open handle goes on appending to a file that nobody can
find any more.
-/
namespace PageJournal

/-- A file that keeps nothing. -/
inductive Device where
  /-- Takes all bytes. -/
  | null
  /-- Takes no byte. -/
  | full
  deriving DecidableEq, Repr

/-- What stands under a path. -/
inductive Entry where
  /-- A regular file: its identity, and its bytes from the last to the first. -/
  | file (identity : Nat) (reversed : Bytes)
  | directory
  | link (target : Route)
  | device (d : Device)
  deriving DecidableEq, Repr

/-- The entry with more bytes behind, if it is the file meant. -/
def Entry.extended (identity : Nat) (bytes : Bytes) : Entry → Entry
  | .file own reversed =>
    if own = identity then .file own (bytes.reverse ++ reversed) else .file own reversed
  | e => e

/-- What can be appended to once it is open. -/
inductive Handle where
  | file (identity : Nat)
  | device (d : Device)
  deriving DecidableEq, Repr

/-- What can be read once it is open. -/
inductive Source where
  | bytes (content : Bytes)
  | directory
  deriving DecidableEq, Repr

def Source.read : Source → Except IoFault Bytes
  | .bytes content => .ok content
  | .directory => .error .isDirectory

/-- The entries of a volume by path, each path once; the root is always a directory. -/
structure Volume where
  entries : List (Path × Entry)
  /-- The identity of the next new file. -/
  nextIdentity : Nat
  deriving DecidableEq, Repr

namespace Volume

/-- A volume that holds nothing but its devices. -/
def empty : Volume :=
  ⟨[(["dev"], .directory), (["dev", "full"], .device .full), (["dev", "null"], .device .null)], 0⟩

/-- What stands under exactly that path. -/
def entry? (v : Volume) : Path → Option Entry
  | [] => some .directory
  | p => v.entries.lookup p

/-- Puts an entry under a path, in place of what was there. -/
def put (v : Volume) (p : Path) (e : Entry) : Volume :=
  { v with entries := (p, e) :: v.entries.filter fun other => other.1 != p }

/-- Takes away what stands under a path. -/
def erase (v : Volume) (p : Path) : Volume :=
  { v with entries := v.entries.filter fun other => other.1 != p }

def isDirectoryAt (v : Volume) (place : Path) : Bool := v.entry? place = some .directory

/-- The names in a directory with what they stand for, in no particular order. -/
def children (v : Volume) (dir : Path) : List (String × Entry) :=
  v.entries.filterMap fun (p, e) =>
    match p.getLast? with
    | some name => if p.dropLast == dir then some (name, e) else none
    | none => none

end Volume

end PageJournal
