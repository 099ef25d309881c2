import PageJournal.Fault
/-!
Ways through a volume as texts spell them: names between slashes. A single dot stays, two dots lead
back, and a slash behind the last name asks for a directory.
-/
namespace PageJournal

/-- The names on the way from the root of a volume to an entry. -/
abbrev Path := List String

namespace Path

def parent (p : Path) : Path := p.dropLast

/-- The path of a name in a directory. -/
def child (dir : Path) (name : String) : Path := dir ++ [name]

end Path

structure Route where
  /-- Starts at the root, wherever the text stands. -/
  absolute : Bool
  names : Path
  /-- A slash follows the last name. -/
  slash : Bool
  deriving DecidableEq, Repr

instance : Coe Path Route := ⟨fun names => ⟨true, names, false⟩⟩

namespace Route

/-- The most bytes of a text that spells a way. -/
def maxLength : Nat := 4095

/-- The most bytes of one name. -/
def maxName : Nat := 255

/-- The way that a text spells; an empty text spells none. -/
def ofText (text : String) : Except IoFault Route :=
  let letters := text.toList
  if letters.contains '\x00' then .error .invalidName
  else if letters.isEmpty then .error .notFound
  else if maxLength < text.utf8ByteSize then .error .nameTooLong
  else
    let names := ((letters.splitOn '/').map String.ofList).filter (· != "")
    .ok ⟨letters.head? == some '/', names, letters.getLast? == some '/'⟩

/-- The way from the root that the text spells in a directory. The empty text spells the directory,
with a slash behind. -/
def within (dir : Path) (text : String) : Except IoFault Route :=
  if text = "" then .ok ⟨true, dir, true⟩
  else do
    let route ← ofText text
    let start := if route.absolute then [] else dir
    .ok ⟨true, start ++ route.names, route.slash⟩

/-- Whether the last name is that of an entry, and does not only lead on or back. -/
def endsInEntry (r : Route) : Bool :=
  match r.names.getLast? with
  | some name => name != "." && name != ".."
  | none => false

end Route

end PageJournal
