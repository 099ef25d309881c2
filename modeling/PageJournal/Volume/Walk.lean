import PageJournal.Volume.Basic
/-!
Following ways. A link on the way is replaced by its target, and a way with too many links leads
nowhere.
-/
namespace PageJournal

/-- What is wanted at the end of a way. -/
inductive Purpose where
  /-- The entry of the last name, be it a link. -/
  | entry
  /-- What the last name leads to. -/
  | content
  /-- What the last name leads to, or a new file there; never with a slash behind the name. -/
  | writing
  deriving DecidableEq, Repr

namespace Volume

/-- Follows names from a directory; `slash` tells whether one follows the last name. A link is
handed on, with the directory that holds it and what is left of the way. The last name need not
exist. -/
def walkNames (v : Volume) (purpose : Purpose)
    (onLink : Path → Route → Path → Except IoFault Path) (slash : Bool) :
    Path → Path → Except IoFault Path
  | place, [] => .ok place
  | place, name :: rest =>
    if name = "." then walkNames v purpose onLink slash place rest
    else if name = ".." then walkNames v purpose onLink slash place.dropLast rest
    else if Route.maxName < name.utf8ByteSize then .error .nameTooLong
    else
      let here := place.child name
      let last := rest.isEmpty
      let bound := slash && purpose != .entry
      if last && slash && purpose = .writing then .error .isDirectory
      else match v.entry? here with
        | none => if last && !bound then .ok here else .error .notFound
        | some .directory => walkNames v purpose onLink slash here rest
        | some (.link target) =>
          if last && purpose = .entry then .ok here else onLink place target rest
        | some (.file _ _) | some (.device _) =>
          if last && !bound then .ok here else .error .notDirectory

/-- Follows names from a directory through at most `links` links. -/
def walk (v : Volume) (purpose : Purpose) : Nat → Bool → Path → Path → Except IoFault Path
  | 0, slash, place, names =>
    v.walkNames purpose (fun _ _ _ => .error .tooManyLinks) slash place names
  | links + 1, slash, place, names =>
    v.walkNames purpose
      (fun dir target rest =>
        walk v purpose links (if rest.isEmpty then slash || target.slash else slash)
          (if target.absolute then [] else dir) (target.names ++ rest))
      slash place names

/-- Where a way leads from the root. -/
def reach (v : Volume) (purpose : Purpose) (r : Route) : Except IoFault Path :=
  v.walk purpose 40 r.slash [] r.names

/-- The place that a way leads to, the last link included. -/
def follow (v : Volume) (r : Route) : Except IoFault Path := v.reach .content r

/-- The place of the entry that a way names, be it a link. -/
def locate (v : Volume) (r : Route) : Except IoFault Path := v.reach .entry r

/-- What a way leads to, if anything. -/
def find? (v : Volume) (r : Route) : Option Entry :=
  match v.follow r with
  | .ok place => v.entry? place
  | .error _ => none

def contains (v : Volume) (r : Route) : Bool := (v.find? r).isSome

def isDirectory (v : Volume) (r : Route) : Bool := v.find? r = some .directory

def isFile (v : Volume) (r : Route) : Bool :=
  match v.find? r with
  | some (.file _ _) => true
  | _ => false

end Volume

end PageJournal
