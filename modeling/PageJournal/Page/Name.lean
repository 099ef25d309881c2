import PageJournal.Fault
import PageJournal.Text.Decimal
/-!
Names of page files. Page 42 lives in `page_42.dbp`; while it is rewritten its new bytes gather in
`page_42.dbp.tmp`. A name is read more liberally than it is written: its number may carry a plus
sign and leading zeros.
-/
namespace PageJournal.PageName

def render (page : PageId) : String := s!"page_{page}.dbp"

/-- The name under which a file's new bytes gather. -/
def temporary (name : String) : String := name ++ ".tmp"

/-- A name before its last dot, and what follows it. A dot in front of a name does not count. -/
def splitExtension (name : List Char) : List Char × Option (List Char) :=
  let extension := (name.reverse.takeWhile (· != '.')).reverse
  let stem := name.take (name.length - extension.length - 1)
  if stem.isEmpty then (name, none) else (stem, some extension)

/-- Whether the name is one of bytes that were still gathering. -/
def isTemporary (name : String) : Bool :=
  (splitExtension name.toList).2 == some "tmp".toList

/-- The page whose file has that name. -/
def parse? (name : String) : Option PageId := do
  let (stem, extension) := splitExtension name.toList
  if extension = some "dbp".toList then
    Text.word32 (← "page_".toList.isPrefixOf? stem)
  else none

end PageJournal.PageName
