import PageJournal.Page.Basic
import PageJournal.Page.Cache
import PageJournal.Page.File
import PageJournal.Volume.Listing
/-!
The page store: one file for every page, a cache in front of them, and the set of pages that were
written since they were last made durable. Each operation is put together from the sections that
its locks delimit, so that the same sections can also be run interleaved.
-/
namespace PageJournal

structure PageStore where
  disk : Volume
  /-- The directory of the page files. -/
  dir : Path
  pageSize : Nat
  pageCount : PageId
  /-- The pages written since their last flush, ascending. -/
  dirty : List PageId
  cache : Cache
  counters : Counters

/-- A set of pages, ascending, with one more page. -/
def insertPage (page : PageId) : List PageId → List PageId
  | [] => [page]
  | p :: rest =>
    if page < p then page :: p :: rest
    else if page = p then p :: rest
    else p :: insertPage page rest

theorem mem_insertPage {page p : PageId} {pages : List PageId} :
    p ∈ insertPage page pages ↔ p = page ∨ p ∈ pages := by
  induction pages with
  | nil => simp [insertPage]
  | cons q rest ih =>
    rw [insertPage]
    split
    · simp
    · split
      · next same => simp [same]
      · simp only [List.mem_cons, ih]
        grind

theorem subset_insertPage (page : PageId) (pages : List PageId) : pages ⊆ insertPage page pages :=
  fun _ mem => mem_insertPage.mpr (.inr mem)

theorem ascending_insertPage {page : PageId} {pages : List PageId} (ascending : pages.Pairwise (· < ·)) :
    (insertPage page pages).Pairwise (· < ·) := by
  induction pages with
  | nil => exact List.pairwise_singleton _ _
  | cons q rest ih =>
    obtain ⟨first, later⟩ := List.pairwise_cons.mp ascending
    rw [insertPage]
    split
    · next below =>
      refine List.pairwise_cons.mpr ⟨fun r mem => ?_, ascending⟩
      rcases List.mem_cons.mp mem with rfl | mem
      · exact below
      · exact UInt32.lt_trans below (first r mem)
    · next notBelow =>
      split
      · exact ascending
      · next other =>
        have above : q < page :=
          UInt32.lt_of_le_of_ne (UInt32.not_lt.mp notBelow) (Ne.symm other)
        refine List.pairwise_cons.mpr ⟨fun r mem => ?_, ih later⟩
        rcases mem_insertPage.mp mem with rfl | mem
        · exact above
        · exact first r mem

namespace PageStore

def fileIn (dir : Path) (page : PageId) : Path := dir.child (PageName.render page)

def file (s : PageStore) (page : PageId) : Path := fileIn s.dir page

def count (s : PageStore) (c : Counter) : PageStore := { s with counters := s.counters.tick c }

/-- Refuses pages that the store does not have. -/
def checkRange (s : PageStore) (page : PageId) : Except Fault Unit :=
  if s.pageCount ≤ page then .error (.pageOutOfRange page s.pageCount) else .ok ()

/-- The bytes of a page's file. A file of another size is no page. -/
def readFile (s : PageStore) (page : PageId) : Except Fault Bytes :=
  match s.disk.read (s.file page) with
  | .error .notFound => .error (.pageNotFound page)
  | .error cause => .error (.io cause)
  | .ok bytes =>
    if bytes.length = s.pageSize then .ok bytes
    else .error (.corruptPage page bytes.length s.pageSize)

/-- Reads a page's file and counts a success. -/
def readCounted (s : PageStore) (page : PageId) : Except Fault Bytes × PageStore :=
  match s.readFile page with
  | .ok bytes => (.ok bytes, s.count .reads)
  | .error fault => (.error fault, s)

/-- Looks a page up in the cache, and counts a hit or a miss. -/
def lookup (s : PageStore) (page : PageId) : Option Bytes × PageStore :=
  match s.cache.lookupCounted s.counters page with
  | (found, cache, counters) => (found, { s with cache, counters })

/-- Offers the bytes just read to the cache. -/
def populate (s : PageStore) (page : PageId) (bytes : Bytes) : PageStore :=
  { s with cache := s.cache.offer page bytes }

def replaceFile (s : PageStore) (t : Trouble) (page : PageId) (bytes : Bytes) (durable : Bool) :
    Except Fault Unit × PageStore :=
  match s.disk.replace t (s.file page) bytes durable with
  | (.ok _, disk) => (.ok (), { s with disk })
  | (.error cause, disk) => (.error (.io cause), { s with disk })

theorem replaceFile_eq (s : PageStore) (t : Trouble) (page : PageId) (bytes : Bytes) (durable : Bool) :
    s.replaceFile t page bytes durable =
      ((s.disk.replace t (s.file page) bytes durable).1.mapError .io,
        { s with disk := (s.disk.replace t (s.file page) bytes durable).2 }) := by
  unfold replaceFile
  rcases s.disk.replace t (s.file page) bytes durable with ⟨_ | _, disk⟩ <;> rfl

/-- The page was written and is not durable. -/
def markDirty (s : PageStore) (page : PageId) : PageStore :=
  { s with dirty := insertPage page s.dirty }

/-- The page is durable. -/
def markClean (s : PageStore) (page : PageId) : PageStore :=
  { s with dirty := s.dirty.filter (· != page) }

/-- Refreshes or inserts the cached copy of a page that was written. -/
def refreshCache (s : PageStore) (page : PageId) (bytes : Bytes) : PageStore :=
  { s with cache := s.cache.afterWrite page bytes }

def read (s : PageStore) (page : PageId) : Except Fault Bytes × PageStore :=
  match s.checkRange page with
  | .error fault => (.error fault, s)
  | .ok _ => s.readCounted page

/-- The part of a fetch that follows a miss: read the file and offer its bytes to the cache. -/
def fetchMissed (s : PageStore) (page : PageId) : Except Fault Bytes × PageStore :=
  match s.readCounted page with
  | (.ok bytes, s) => (.ok bytes, s.populate page bytes)
  | (.error fault, s) => (.error fault, s)

def fetch (s : PageStore) (page : PageId) : Except Fault Bytes × PageStore :=
  match s.checkRange page with
  | .error fault => (.error fault, s)
  | .ok _ =>
    match s.lookup page with
    | (some bytes, s) => (.ok bytes, s)
    | (none, s) => s.fetchMissed page

/-- The page that a write would store. -/
def prepare (s : PageStore) (page : PageId) (payload : Bytes) : Except Fault Page := do
  s.checkRange page
  Page.ofPayload page payload s.pageSize

/-- The part of a write under the exclusive lock. -/
def writeLocked (t : Trouble) (s : PageStore) (page : Page) : Except Fault Unit × PageStore :=
  match s.replaceFile t page.id page.bytes false with
  | (.error fault, s) => (.error fault, s)
  | (.ok _, s) => (.ok (), (s.markDirty page.id).refreshCache page.id page.bytes)

/-- Overwrites a page with a payload and its padding. A write that fails changes neither the page
nor the cache nor a counter. -/
def write (s : PageStore) (page : PageId) (payload : Bytes) (t : Trouble := .none) :
    Except Fault Unit × PageStore :=
  match s.prepare page payload with
  | .error fault => (.error fault, s)
  | .ok prepared =>
    match writeLocked t s prepared with
    | (.error fault, s) => (.error fault, s)
    | (.ok _, s) => (.ok (), s.count .writes)

/-- Makes the current bytes of a page durable. -/
def flush (s : PageStore) (page : PageId) (t : Trouble := .none) :
    Except Fault Page × PageStore :=
  match s.checkRange page with
  | .error fault => (.error fault, s)
  | .ok _ =>
    match s.readFile page with
    | .error fault => (.error fault, s)
    | .ok bytes =>
      match s.replaceFile t page bytes true with
      | (.error fault, s) => (.error fault, s)
      | (.ok _, s) => (.ok ⟨page, bytes, false⟩, s.markClean page)

def isDirty (s : PageStore) (page : PageId) : Bool := s.dirty.contains page

/-- The part of an inspection that follows the read. -/
def inspected (s : PageStore) (page : PageId) (bytes : Bytes) : Page :=
  ⟨page, bytes, s.isDirty page⟩

/-- The current bytes of a page and whether it is dirty. -/
def page (s : PageStore) (id : PageId) : Except Fault Page × PageStore :=
  match s.checkRange id with
  | .error fault => (.error fault, s)
  | .ok _ =>
    match s.readCounted id with
    | (.ok bytes, s) => (.ok (s.inspected id bytes), s)
    | (.error fault, s) => (.error fault, s)

/-- Takes away the files in which bytes were gathering when a write was interrupted, and tells
which pages have a file. -/
def discover (dir : Path) (v : Volume) : List String → Except IoFault (List PageId × Volume)
  | [] => .ok ([], v)
  | name :: rest =>
    if !v.isFile (dir.child name) then discover dir v rest
    else if PageName.isTemporary name then do
      discover dir (← v.removeFile (dir.child name)) rest
    else do
      let (pages, v) ← discover dir v rest
      .ok ((PageName.parse? name).toList ++ pages, v)

/-- Makes a page of zero bytes for every number in the list that has no file. -/
def format (t : Trouble) (dir : Path) (pageSize : Nat) (known : List PageId) :
    List PageId → Volume → Except IoFault Unit × Volume
  | [], v => (.ok (), v)
  | page :: rest, v =>
    if known.contains page then format t dir pageSize known rest v
    else match v.replace t (fileIn dir page) (List.replicate pageSize 0) true with
      | (.error cause, v) => (.error cause, v)
      | (.ok _, v) => format t dir pageSize known rest v

/-- The pages that the settings ask for, ascending. -/
def configured (c : Config) : List PageId := (List.range c.pageCount.toNat).map UInt32.ofNat

/-- Opens the store of a directory: makes the directory, clears interrupted writes away, and makes
the pages that are missing. -/
def openAt (c : Config) (dir : Path) (cache : Cache) (counters : Counters) (v : Volume)
    (t : Trouble := .none) : Except Fault PageStore × Volume :=
  match v.createDirectories dir with
  | .error cause => (.error (.io cause), v)
  | .ok v =>
    match v.names dir with
    | .error cause => (.error (.io cause), v)
    | .ok names =>
      match discover dir v names with
      | .error cause => (.error (.io cause), v)
      | .ok (known, v) =>
        match format t dir c.pageSize known (configured c) v with
        | (.error cause, v) => (.error (.io cause), v)
        | (.ok _, v) =>
          (.ok ⟨v, dir, c.pageSize, c.pageCount, [], cache, counters⟩, v)

end PageStore

end PageJournal
