/-!
Everything that can go wrong, as causes. The wording of each is fixed by `message`.
-/
namespace PageJournal

abbrev PageId := UInt32

/-- Why the environment refused a call on a file. -/
inductive IoFault where
  | notFound
  | alreadyExists
  | isDirectory
  | notDirectory
  | notEmpty
  | noSpace
  | notSupported
  | tooManyLinks
  | nameTooLong
  /-- A name that no file can have. -/
  | invalidName
  /-- A destination that takes no more bytes, yet reports no error. -/
  | takesNothing
  /-- A failure known by its text, and by whether it means that something is missing. -/
  | reported (missing : Bool) (text : String)
  deriving DecidableEq, Repr

def IoFault.isNotFound : IoFault → Bool
  | .notFound => true
  | .reported missing _ => missing
  | _ => false

def IoFault.message : IoFault → String
  | .notFound => "No such file or directory (os error 2)"
  | .alreadyExists => "File exists (os error 17)"
  | .isDirectory => "Is a directory (os error 21)"
  | .notDirectory => "Not a directory (os error 20)"
  | .notEmpty => "Directory not empty (os error 39)"
  | .noSpace => "No space left on device (os error 28)"
  | .notSupported => "Invalid argument (os error 22)"
  | .tooManyLinks => "Too many levels of symbolic links (os error 40)"
  | .nameTooLong => "File name too long (os error 36)"
  | .invalidName => "file name contained an unexpected NUL byte"
  | .takesNothing => "failed to write whole buffer"
  | .reported _ text => text

/-- The locks whose wait can be bounded. -/
inductive Lock where
  | pagesShared
  | pagesExclusive
  | checkpoint
  deriving DecidableEq, Repr

def Lock.label : Lock → String
  | .pagesShared => "page store read"
  | .pagesExclusive => "page store write"
  | .checkpoint => "checkpoint"

/-- Why an operation failed. -/
inductive Fault where
  | io (cause : IoFault)
  | pageNotFound (page : PageId)
  | pageOutOfRange (page pageCount : PageId)
  | payloadTooLarge (length pageSize : Nat)
  | corruptPage (page : PageId) (length expected : Nat)
  /-- The page is served uncached instead. -/
  | cacheFull (capacity : Nat)
  | logCorruption (detail : String)
  | logWrite (detail : String)
  | configuration (detail : String)
  | lockTimeout (lock : Lock)
  deriving DecidableEq, Repr

namespace Fault

def message : Fault → String
  | io cause => s!"IO error: {cause.message}"
  | pageNotFound page => s!"Page {page} not found"
  | pageOutOfRange page pageCount => s!"Page {page} out of range (page count {pageCount})"
  | payloadTooLarge length pageSize =>
    s!"Payload of {length} bytes does not fit a {pageSize}-byte page"
  | corruptPage page length expected =>
    s!"Page {page} is {length} bytes on disk, expected {expected}"
  | cacheFull capacity => s!"Page cache full (capacity {capacity})"
  | logCorruption detail => s!"WAL corruption detected: {detail}"
  | logWrite detail => s!"WAL write failed: {detail}"
  | configuration detail => s!"Configuration error: {detail}"
  | lockTimeout lock => s!"Timed out waiting for {lock.label} lock"

/-- A missing page, whether the store or the environment reports it. -/
def isNotFound : Fault → Bool
  | pageNotFound _ => true
  | io cause => cause.isNotFound
  | _ => false

end Fault

end PageJournal
