import PageJournal.Config
import PageJournal.Metrics
import PageJournal.Text.Utf8
/-!
The page cache: copies of a bounded number of pages, most recently used first. A copy is never
changed in place. Every replacement is a new entry with a serial number of its own, and the entry
that leaves is retired, so whoever holds one can tell whether it is still the current copy.
-/
namespace PageJournal

structure CacheEntry where
  serial : Nat
  page : PageId
  bytes : Bytes
  /-- How many look-ups were served from it. -/
  readers : UInt32
  deriving DecidableEq, Repr

/-- The copies in the cache, and those that left it. -/
structure Cache where
  /-- Zero turns the cache off. -/
  capacity : Nat
  policy : CachePolicy
  /-- Most recently used first, each page once. -/
  entries : List CacheEntry
  retired : List CacheEntry
  nextSerial : Nat
  deriving DecidableEq, Repr

namespace Cache

def create (capacity : Nat) (policy : CachePolicy) : Cache := ⟨capacity, policy, [], [], 0⟩

def entry? (c : Cache) (page : PageId) : Option CacheEntry :=
  c.entries.find? fun e => e.page == page

def contains (c : Cache) (page : PageId) : Bool := (c.entry? page).isSome

/-- The pages in the cache, most recently used first. -/
def ids (c : Cache) : List PageId := c.entries.map (·.page)

def others (c : Cache) (page : PageId) : List CacheEntry :=
  c.entries.filter fun e => e.page != page

/-- An entry of that serial number, and whether it is still the current copy of its page. -/
def held? (c : Cache) (serial : Nat) : Option (CacheEntry × Bool) :=
  match c.entries.find? (·.serial == serial) with
  | some e => some (e, true)
  | none => (c.retired.find? (·.serial == serial)).map fun e => (e, false)

def fresh (c : Cache) (page : PageId) (bytes : Bytes) : CacheEntry := ⟨c.nextSerial, page, bytes, 0⟩

/-- Looks a page up; a hit makes it the most recently used. -/
def lookup (c : Cache) (page : PageId) : Option Bytes × Cache :=
  match c.entry? page with
  | some e =>
    (some e.bytes, { c with entries := { e with readers := e.readers + 1 } :: c.others page })
  | none => (none, c)

def isFull (c : Cache) : Bool := c.capacity ≤ c.entries.length

/-- Takes a new copy in as the most recently used. The copy that it replaces, or the least recently
used one if there is no place left, is retired. -/
def install (c : Cache) (page : PageId) (bytes : Bytes) : Cache :=
  let (kept, leaving) :=
    match c.entry? page with
    | some old => (c.others page, [old])
    | none => if c.isFull then (c.entries.dropLast, c.entries.getLast?.toList) else (c.entries, [])
  { c with
    entries := c.fresh page bytes :: kept
    retired := leaving ++ c.retired
    nextSerial := c.nextSerial + 1 }

/-- Inserts or replaces a copy. Only a new page can be refused. -/
def insert (c : Cache) (page : PageId) (bytes : Bytes) : Except Fault Cache :=
  if c.capacity = 0 then .error (.cacheFull 0)
  else if !c.contains page && c.isFull && c.policy == .refuseNew then .error (.cacheFull c.capacity)
  else .ok (c.install page bytes)

/-- Replaces the copy of a page where it stands; nothing if there is none. -/
def refresh? (c : Cache) (page : PageId) (bytes : Bytes) : Option Cache :=
  match c.entry? page with
  | some old =>
    some { c with
      entries := c.entries.map fun e => if e.page = page then c.fresh page bytes else e
      retired := old :: c.retired
      nextSerial := c.nextSerial + 1 }
  | none => none

/-- Drops the copy of a page; nothing if there is none. -/
def remove? (c : Cache) (page : PageId) : Option Cache :=
  match c.entry? page with
  | some old => some { c with entries := c.others page, retired := old :: c.retired }
  | none => none

/-- Looks a page up and counts a hit or a miss. -/
def lookupCounted (c : Cache) (m : Counters) (page : PageId) : Option Bytes × Cache × Counters :=
  match c.lookup page with
  | (some bytes, c) => (some bytes, c, m.tick .cacheHits)
  | (none, c) => (none, c, m.tick .cacheMisses)

/-- Inserts a copy if the cache takes it. -/
def offer (c : Cache) (page : PageId) (bytes : Bytes) : Cache :=
  match c.insert page bytes with
  | .ok c => c
  | .error _ => c

/-- The cache after a write: the copy is refreshed in place, or else offered. -/
def afterWrite (c : Cache) (page : PageId) (bytes : Bytes) : Cache :=
  match c.refresh? page bytes with
  | some c => c
  | none => c.offer page bytes

end Cache

end PageJournal
