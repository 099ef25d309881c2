import PageJournal.Volume.Walk
/-!
The names in a directory, in ascending order.
-/
namespace PageJournal.Volume

/-- Ascending names with one more name. -/
def insertName (name : String) : List String → List String
  | [] => [name]
  | other :: rest => if name ≤ other then name :: other :: rest else other :: insertName name rest

/-- The same names, ascending. -/
def ascending (names : List String) : List String := names.foldr insertName []

/-- The names in the directory that a way leads to, ascending. -/
def names (v : Volume) (r : Route) : Except IoFault (List String) := do
  let place ← v.follow r
  match v.entry? place with
  | none => .error .notFound
  | some .directory => .ok (ascending ((v.children place).map (·.1)))
  | some _ => .error .notDirectory

/-- The names in a directory, ascending, with a slash behind those that lead to a directory. -/
def listing (v : Volume) (r : Route) : Except IoFault (List String) := do
  let place ← v.follow r
  let marked := (← v.names place).map fun name =>
    if v.isDirectory (place.child name) then name ++ "/" else name
  .ok (ascending marked)

end PageJournal.Volume
