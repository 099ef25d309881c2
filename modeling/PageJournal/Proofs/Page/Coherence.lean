import Mathlib.Logic.Function.Basic
import PageJournal.Proofs.Page.Replacement

/-! A page store without its cache is a table of pages. Every cached copy is what the page's file holds,
and then each operation of the store answers and acts as it does on the table. -/
namespace PageJournal

namespace Cache

/-- Every copy is the page it is a copy of. -/
def Agrees (c : Cache) (contents : PageId → Except Fault Bytes) : Prop :=
  ∀ e ∈ c.entries, contents e.page = .ok e.bytes

variable {c : Cache} {contents : PageId → Except Fault Bytes} {page : PageId} {bytes : Bytes}

theorem agrees_create (capacity : Nat) (policy : CachePolicy) (contents : PageId → Except Fault Bytes) :
    (create capacity policy).Agrees contents :=
  fun _ mem => absurd mem List.not_mem_nil

theorem entry?_eq_some {e : CacheEntry} (found : c.entry? page = some e) :
    e ∈ c.entries ∧ e.page = page :=
  ⟨List.mem_of_find?_eq_some found, by simpa using List.find?_some found⟩

theorem entry?_eq_none (missing : c.entry? page = none) {e : CacheEntry} (mem : e ∈ c.entries) :
    e.page ≠ page := by
  simpa using List.find?_eq_none.mp missing e mem

theorem mem_others {e : CacheEntry} : e ∈ c.others page ↔ e ∈ c.entries ∧ e.page ≠ page := by
  simp [others]

theorem Agrees.found (agrees : c.Agrees contents) (hit : (c.lookup page).1 = some bytes) :
    contents page = .ok bytes := by
  unfold lookup at hit
  split at hit
  · next e found =>
    obtain ⟨mem, same⟩ := entry?_eq_some found
    cases hit
    exact same ▸ agrees e mem
  · cases hit

theorem Agrees.lookup (agrees : c.Agrees contents) (page : PageId) :
    (c.lookup page).2.Agrees contents := by
  unfold Cache.lookup
  split
  · next e found =>
    intro e' mem
    rcases List.mem_cons.mp mem with rfl | old
    · exact agrees e (entry?_eq_some found).1
    · exact agrees e' (mem_others.mp old).1
  · exact agrees

theorem mem_install {e : CacheEntry} (mem : e ∈ (c.install page bytes).entries) :
    e = c.fresh page bytes ∨ e ∈ c.entries := by
  have kept : ∀ rest, e ∈ c.fresh page bytes :: rest → (∀ e ∈ rest, e ∈ c.entries) →
      e = c.fresh page bytes ∨ e ∈ c.entries :=
    fun rest mem old => (List.mem_cons.mp mem).imp_right (old e)
  rcases found : c.entry? page with _ | old
  · simp only [install, found] at mem
    split at mem
    · exact kept _ mem fun e mem => List.dropLast_subset _ mem
    · exact kept _ mem fun e mem => mem
  · simp only [install, found] at mem
    exact kept _ mem fun e mem => (mem_others.mp mem).1

/-- At most one copy is new in a cache that was offered one. -/
theorem mem_offer {e : CacheEntry} (mem : e ∈ (c.offer page bytes).entries) :
    e = c.fresh page bytes ∨ e ∈ c.entries := by
  unfold offer insert at mem
  split at mem
  · next taken =>
    split at taken
    · cases taken
    · split at taken
      · cases taken
      · cases taken
        exact mem_install mem
  · exact .inr mem

theorem Agrees.offer (agrees : c.Agrees contents) (same : contents page = .ok bytes) :
    (c.offer page bytes).Agrees contents := by
  intro e mem
  rcases mem_offer mem with rfl | old
  · exact same
  · exact agrees e old

/-- After a write no copy of the old bytes is left. -/
theorem Agrees.afterWrite (agrees : c.Agrees contents) (page : PageId) (bytes : Bytes) :
    (c.afterWrite page bytes).Agrees (Function.update contents page (.ok bytes)) := by
  have other : ∀ e ∈ c.entries, e.page ≠ page →
      Function.update contents page (.ok bytes) e.page = .ok e.bytes := by
    intro e mem apart
    rw [Function.update_of_ne apart]
    exact agrees e mem
  intro e mem
  unfold Cache.afterWrite refresh? at mem
  rcases found : c.entry? page with _ | old
  · rw [found] at mem
    rcases mem_offer mem with rfl | old
    · exact Function.update_self page _ contents
    · exact other e old (entry?_eq_none found old)
  · rw [found] at mem
    obtain ⟨before, there, rfl⟩ := List.mem_map.mp mem
    split
    · exact Function.update_self page _ contents
    · next apart => exact other before there apart

end Cache

/-- A page store without its cache. -/
structure Table where
  pageSize : Nat
  pageCount : PageId
  /-- What reading a page's file gives. -/
  contents : PageId → Except Fault Bytes
  dirty : List PageId
  /-- Where a directory is in the way. -/
  blocked : Slot → Bool

namespace Table

variable (t : Table)

def read (page : PageId) : Except Fault Bytes :=
  if t.pageCount ≤ page then .error (.pageOutOfRange page t.pageCount) else t.contents page

def page (id : PageId) : Except Fault Page :=
  (t.read id).map fun bytes => ⟨id, bytes, t.dirty.contains id⟩

def writeLocked (trouble : Trouble) (written : Page) : Except Fault Unit × Table :=
  match Volume.refusal trouble (Volume.inTheWay t.blocked written.id)
    (Volume.installCalls written.bytes false) with
  | some cause => (.error (.io cause), t)
  | none =>
    (.ok (), { t with
      contents := Function.update t.contents written.id (.ok written.bytes)
      dirty := insertPage written.id t.dirty })

def write (page : PageId) (payload : Bytes) (trouble : Trouble) : Except Fault Unit × Table :=
  if t.pageCount ≤ page then (.error (.pageOutOfRange page t.pageCount), t)
  else if t.pageSize < payload.length then
    (.error (.payloadTooLarge payload.length t.pageSize), t)
  else t.writeLocked trouble ⟨page, padded t.pageSize payload, true⟩

def flush (page : PageId) (trouble : Trouble) : Except Fault Page :=
  match t.read page with
  | .error fault => .error fault
  | .ok bytes =>
    match Volume.refusal trouble (Volume.inTheWay t.blocked page)
      (Volume.installCalls bytes true ++ Volume.settleCalls true) with
    | some cause => .error (.io cause)
    | none => .ok ⟨page, bytes, false⟩

/-- The pages whose flush goes through are clean. -/
def flushed (pages : List PageId) (trouble : PageId → Trouble) : Table :=
  { t with dirty := t.dirty.filter fun page =>
      !(pages.contains page && (t.flush page (trouble page)).isOk) }

variable {t} {page : PageId} {trouble : PageId → Trouble}

theorem flushed_of_ok {written : Page} (done : t.flush page (trouble page) = .ok written) :
    t.flushed [page] trouble = { t with dirty := t.dirty.filter (· != page) } := by
  unfold flushed
  congr 2
  funext q
  by_cases same : q = page
  · simp [same, done, Except.isOk, Except.toBool]
  · simp [same]

theorem flushed_of_error {fault : Fault} (failed : t.flush page (trouble page) = .error fault) :
    t.flushed [page] trouble = t := by
  unfold flushed
  congr 1
  refine List.filter_eq_self.mpr fun q _ => ?_
  by_cases same : q = page
  · simp [same, failed, Except.isOk, Except.toBool]
  · simp [same]

end Table

namespace PageStore

def table (s : PageStore) (place : Path) : Table :=
  ⟨s.pageSize, s.pageCount, s.readFile, s.dirty, s.disk.blocked place⟩

/-- The store is that table, whatever its cache. -/
structure Shows (h : Handle) (place : Path) (t : Table) (s : PageStore) : Prop where
  orderly : s.disk.Orderly h s.dir place
  agrees : s.cache.Agrees t.contents
  table : s.table place = t

variable {h : Handle} {place : Path} {t : Table} {s : PageStore}

theorem shows_table (orderly : s.disk.Orderly h s.dir place) (agrees : s.cache.Agrees s.readFile) :
    Shows h place (s.table place) s := ⟨orderly, agrees, rfl⟩

theorem Shows.count (shows : Shows h place t s) (c : Counter) : Shows h place t (s.count c) :=
  ⟨shows.orderly, shows.agrees, shows.table⟩

theorem Shows.readCounted (shows : Shows h place t s) (page : PageId) :
    (s.readCounted page).1 = t.contents page ∧ Shows h place t (s.readCounted page).2 := by
  have contents : s.readFile = t.contents := congrArg Table.contents shows.table
  unfold PageStore.readCounted
  rw [contents]
  rcases t.contents page with fault | bytes
  · exact ⟨rfl, shows⟩
  · exact ⟨rfl, shows.count .reads⟩

theorem Shows.checkRange (shows : Shows h place t s) (page : PageId) :
    s.checkRange page = if t.pageCount ≤ page then .error (.pageOutOfRange page t.pageCount)
      else .ok () := by
  have count : s.pageCount = t.pageCount := congrArg Table.pageCount shows.table
  rw [PageStore.checkRange, count]

theorem Shows.read (shows : Shows h place t s) (page : PageId) :
    (s.read page).1 = t.read page ∧ Shows h place t (s.read page).2 := by
  unfold PageStore.read Table.read
  rw [shows.checkRange]
  by_cases out : t.pageCount ≤ page
  · rw [if_pos out, if_pos out]
    exact ⟨rfl, shows⟩
  · rw [if_neg out, if_neg out]
    exact shows.readCounted page

theorem Shows.page (shows : Shows h place t s) (id : PageId) :
    (s.page id).1 = t.page id ∧ Shows h place t (s.page id).2 := by
  unfold PageStore.page Table.page Table.read
  rw [shows.checkRange]
  by_cases out : t.pageCount ≤ id
  · rw [if_pos out, if_pos out]
    exact ⟨rfl, shows⟩
  · rw [if_neg out, if_neg out]
    obtain ⟨answer, after⟩ := shows.readCounted id
    rcases read : s.readCounted id with ⟨_ | bytes, s'⟩
    all_goals
      rw [read] at answer after
      rw [← answer]
    · exact ⟨rfl, after⟩
    · have dirty : s'.dirty = t.dirty := congrArg Table.dirty after.table
      simp only [inspected, isDirty, dirty]
      exact ⟨rfl, after⟩

theorem lookup_eq (s : PageStore) (page : PageId) : ∃ counters,
    s.lookup page = ((s.cache.lookup page).1, { s with cache := (s.cache.lookup page).2, counters }) := by
  unfold lookup Cache.lookupCounted
  rcases s.cache.lookup page with ⟨_ | bytes, cache⟩
  all_goals exact ⟨_, rfl⟩

theorem Shows.fetchMissed (shows : Shows h place t s) (page : PageId) :
    (s.fetchMissed page).1 = t.contents page ∧ Shows h place t (s.fetchMissed page).2 := by
  obtain ⟨answer, after⟩ := shows.readCounted page
  unfold PageStore.fetchMissed
  rcases read : s.readCounted page with ⟨fault | bytes, s'⟩
  all_goals rw [read] at answer after
  · exact ⟨answer, after⟩
  · exact ⟨answer, after.orderly, after.agrees.offer answer.symm, after.table⟩

theorem Shows.fetch (shows : Shows h place t s) (page : PageId) :
    (s.fetch page).1 = t.read page ∧ Shows h place t (s.fetch page).2 := by
  unfold PageStore.fetch Table.read
  rw [shows.checkRange]
  by_cases out : t.pageCount ≤ page
  · rw [if_pos out, if_pos out]
    exact ⟨rfl, shows⟩
  · rw [if_neg out, if_neg out]
    obtain ⟨counters, looked⟩ := lookup_eq s page
    have kept : Shows h place t (s.lookup page).2 := by
      rw [looked]
      exact ⟨shows.orderly, shows.agrees.lookup page, shows.table⟩
    rcases hit : (s.cache.lookup page).1 with _ | bytes
    all_goals
      rw [hit] at looked
      rw [looked] at kept ⊢
    · exact kept.fetchMissed page
    · exact ⟨(shows.agrees.found hit).symm, kept⟩

theorem readFile_eq_ok {page : PageId} {bytes : Bytes} :
    s.readFile page = .ok bytes ↔ s.disk.read (s.file page) = .ok bytes ∧ bytes.length = s.pageSize := by
  unfold readFile
  split
  · next missing => simp [missing]
  · next failed => simp [failed]
  · next content read =>
    rw [read]
    split
    · next size =>
      constructor
      · rintro ⟨⟩
        exact ⟨rfl, size⟩
      · rintro ⟨⟨⟩, -⟩
        rfl
    · next size =>
      constructor
      · nofun
      · rintro ⟨⟨⟩, right⟩
        exact absurd right size

/-- What a page's file gives when it is read, by what stands there. -/
def bytesOf (pageSize : Nat) (page : PageId) : Option Entry → Except Fault Bytes
  | none => .error (.pageNotFound page)
  | some (.file _ reversed) =>
    if reversed.reverse.length = pageSize then .ok reversed.reverse
    else .error (.corruptPage page reversed.reverse.length pageSize)
  | some _ => .error (.io .isDirectory)

theorem readFile_eq (orderly : s.disk.Orderly h s.dir place) (page : PageId) :
    s.readFile page = bytesOf s.pageSize page (s.disk.slot? place (.page page)) := by
  have read := orderly.read (.page page)
  unfold readFile file fileIn
  rw [show s.dir.child (PageName.render page) = s.dir.child (Slot.page page).name from rfl, read]
  rcases there : s.disk.slot? place (.page page) with _ | e
  · rfl
  · rcases orderly.kind _ e there with rfl | ⟨i, reversed, rfl, -⟩ <;> rfl

/-- A change of the volume that changes none of the store's files. -/
theorem Shows.onDisk (shows : Shows h place t s) {disk : Volume} (orderly : disk.Orderly h s.dir place)
    (same : ∀ x, disk.slot? place x = s.disk.slot? place x) : Shows h place t { s with disk } := by
  refine ⟨orderly, shows.agrees, ?_⟩
  have contents : ({ s with disk } : PageStore).readFile = s.readFile := by
    funext page
    rw [readFile_eq (s := { s with disk }) orderly, readFile_eq shows.orderly, same]
  have blocked : disk.blocked place = s.disk.blocked place := by
    funext x
    rw [Volume.blocked, Volume.blocked, same]
  rw [← shows.table, PageStore.table, PageStore.table, contents]
  simp only [blocked]

/-- Replacing a page's file changes that page if no call up to the rename is refused. -/
theorem Shows.replaceFile (shows : Shows h place t s) (trouble : Trouble) (page : PageId)
    {bytes : Bytes} (size : bytes.length = t.pageSize) (durable : Bool) :
    ∃ disk, s.replaceFile trouble page bytes durable =
        ((Volume.outcomeOf (Volume.refusal trouble (Volume.inTheWay t.blocked page)
          (Volume.installCalls bytes durable ++ Volume.settleCalls durable))).mapError .io,
          { s with disk }) ∧
      disk.Orderly h s.dir place ∧
      { s with disk }.table place = { t with
        contents := if (Volume.refusal trouble (Volume.inTheWay t.blocked page)
            (Volume.installCalls bytes durable)).isNone
          then Function.update t.contents page (.ok bytes) else t.contents } := by
  obtain rfl := shows.table
  obtain ⟨outcome, replaced⟩ := shows.orderly.replace trouble page bytes durable
  rw [replaceFile_eq, file, outcome]
  generalize (s.disk.replace trouble (fileIn s.dir page) bytes durable).2 = disk at replaced
  refine ⟨disk, rfl, replaced.orderly, ?_⟩
  have read : ∀ q, ({ s with disk } : PageStore).readFile q =
      bytesOf s.pageSize q (disk.slot? place (.page q)) :=
    readFile_eq (s := { s with disk }) replaced.orderly
  have blocked : disk.blocked place = s.disk.blocked place := funext replaced.blocked
  have contents : ({ s with disk } : PageStore).readFile =
      if (Volume.refusal trouble (Volume.inTheWay (s.disk.blocked place) page)
        (Volume.installCalls bytes durable)).isNone
      then Function.update s.readFile page (.ok bytes) else s.readFile := by
    have old := readFile_eq shows.orderly
    have here := replaced.here
    funext q
    split
    · next installed =>
      rw [installed, if_pos rfl] at here
      obtain ⟨i, here⟩ := here
      by_cases same : q = page
      · rw [same, read, here, Function.update_self, bytesOf, List.reverse_reverse]
        exact if_pos size
      · rw [read, replaced.others q same, Function.update_of_ne same, old]
    · next refused =>
      rw [if_neg refused] at here
      by_cases same : q = page
      · rw [same, read, here, old]
      · rw [read, replaced.others q same, old]
  unfold PageStore.table
  rw [contents]
  simp only [blocked]

theorem Shows.writeLocked (shows : Shows h place t s) (trouble : Trouble) (written : Page)
    (size : written.bytes.length = t.pageSize) :
    (s.writeLocked trouble written).1 = (t.writeLocked trouble written).1 ∧
      Shows h place (t.writeLocked trouble written).2 (s.writeLocked trouble written).2 := by
  obtain ⟨disk, replaced, orderly, after⟩ := shows.replaceFile trouble written.id size false
  unfold PageStore.writeLocked Table.writeLocked
  rw [replaced]
  have calls : Volume.installCalls written.bytes false ++ Volume.settleCalls false =
      Volume.installCalls written.bytes false := List.append_nil _
  rw [calls]
  rcases refused : Volume.refusal trouble (Volume.inTheWay t.blocked written.id)
    (Volume.installCalls written.bytes false) with _ | cause
  all_goals rw [refused] at after
  · refine ⟨rfl, orderly, shows.agrees.afterWrite written.id written.bytes, ?_⟩
    exact congrArg (fun t : Table => { t with dirty := insertPage written.id t.dirty }) after
  · exact ⟨rfl, orderly, shows.agrees, after⟩

theorem length_of_prepare {page : PageId} {payload : Bytes} {w : Page}
    (prepared : s.prepare page payload = .ok w) : w.id = page ∧ w.bytes.length = s.pageSize := by
  obtain ⟨-, fits, rfl⟩ := prepare_eq_ok prepared
  exact ⟨rfl, length_padded fits⟩

theorem Shows.write (shows : Shows h place t s) (page : PageId) (payload : Bytes)
    (trouble : Trouble) :
    (s.write page payload trouble).1 = (t.write page payload trouble).1 ∧
      Shows h place (t.write page payload trouble).2 (s.write page payload trouble).2 := by
  have pageSize : s.pageSize = t.pageSize := congrArg Table.pageSize shows.table
  unfold PageStore.write Table.write prepare Page.ofPayload
  rw [shows.checkRange, pageSize]
  by_cases out : t.pageCount ≤ page
  · simp only [if_pos out]
    exact ⟨rfl, shows⟩
  · simp only [if_neg out]
    by_cases large : t.pageSize < payload.length
    · simp only [if_pos large]
      exact ⟨rfl, shows⟩
    · simp only [if_neg large]
      obtain ⟨answer, after⟩ := shows.writeLocked trouble ⟨page, padded t.pageSize payload, true⟩
        (length_padded (Nat.not_lt.mp large))
      simp only [bind, Except.bind]
      rw [← answer]
      rcases done : s.writeLocked trouble ⟨page, padded t.pageSize payload, true⟩ with ⟨_ | _, s'⟩
      all_goals rw [done] at after
      · exact ⟨rfl, after⟩
      · exact ⟨rfl, after.count .writes⟩

/-- A flush gives back what the page's file holds and leaves every page as it is. -/
theorem Shows.flush (shows : Shows h place t s) (page : PageId) (trouble : PageId → Trouble) :
    (s.flush page (trouble page)).1 = t.flush page (trouble page) ∧
      Shows h place (t.flushed [page] trouble) (s.flush page (trouble page)).2 := by
  have contents : s.readFile page = t.contents page :=
    congrFun (congrArg Table.contents shows.table) page
  have failed : ∀ fault disk, t.flush page (trouble page) = .error fault →
      disk.Orderly h s.dir place → { s with disk }.table place = t →
      Shows h place (t.flushed [page] trouble) { s with disk } := by
    intro fault disk fails orderly table
    rw [Table.flushed_of_error fails]
    exact ⟨orderly, shows.agrees, table⟩
  have unread : ∀ fault, t.read page = .error fault → t.flush page (trouble page) = .error fault := by
    intro fault fails
    rw [Table.flush, fails]
  unfold PageStore.flush
  rw [shows.checkRange, contents]
  by_cases out : t.pageCount ≤ page
  · have flush := unread _ (if_pos out)
    rw [if_pos out, flush]
    exact ⟨rfl, failed _ _ flush shows.orderly shows.table⟩
  · rcases read : t.contents page with fault | bytes
    · have flush := unread fault ((if_neg out).trans read)
      rw [if_neg out, flush]
      exact ⟨rfl, failed _ _ flush shows.orderly shows.table⟩
    · have readable : t.read page = .ok bytes := (if_neg out).trans read
      have size : bytes.length = t.pageSize := by
        rw [(readFile_eq_ok.mp (contents.trans read)).2]
        exact congrArg Table.pageSize shows.table
      obtain ⟨disk, replaced, orderly, after⟩ := shows.replaceFile (trouble page) page size true
      -- the page is replaced by the bytes that it has
      rw [← read, Function.update_eq_self, ite_self] at after
      have outcome : t.flush page (trouble page) =
          ((Volume.outcomeOf (Volume.refusal (trouble page) (Volume.inTheWay t.blocked page)
            (Volume.installCalls bytes true ++ Volume.settleCalls true))).mapError .io).map
              fun _ => ⟨page, bytes, false⟩ := by
        rw [Table.flush, readable]
        dsimp only
        split
        all_goals
          next refused =>
          rw [refused]
          rfl
      rw [if_neg out, outcome]
      simp only [replaced]
      rcases refused : Volume.refusal (trouble page) (Volume.inTheWay t.blocked page)
        (Volume.installCalls bytes true ++ Volume.settleCalls true) with _ | cause
      all_goals rw [refused] at outcome
      · rw [Table.flushed_of_ok outcome]
        exact ⟨rfl, orderly, shows.agrees,
          congrArg (fun t : Table => { t with dirty := t.dirty.filter (· != page) }) after⟩
      · exact ⟨rfl, failed _ _ outcome orderly after⟩

section Opening

open Volume

variable {dir : Path} {v w : Volume}

theorem orderly_discover {names : List String} {known : List PageId} (orderly : v.Orderly h dir place)
    (unlinked : ∀ name link, v.entry? (place.child name) ≠ some (.link link))
    (done : discover dir v names = .ok (known, w)) : w.Orderly h dir place := by
  induction names generalizing v known with
  | nil =>
    cases done
    exact orderly
  | cons name rest ih =>
    rcases discover_cons done with ⟨-, later⟩ | ⟨u, temporary, removed, later⟩ | ⟨pages, -, -, later⟩
    · exact ih orderly unlinked later
    · obtain ⟨orderly, entries⟩ :=
        orderly.removeChild (isName_of_isTemporary temporary) (unlinked name) removed
      refine ih orderly (fun name link there => ?_) later
      rw [entries] at there
      split at there
      · cases there
      · exact unlinked name link there
    · exact ih orderly unlinked later

theorem orderly_format (orderly : v.Orderly h dir place) (t : Trouble) (pageSize : Nat)
    (known pages : List PageId) : (format t dir pageSize known pages v).2.Orderly h dir place := by
  induction pages generalizing v with
  | nil => exact orderly
  | cons page rest ih =>
    unfold format
    split
    · exact ih orderly
    · have replaced := (orderly.replace t page (List.replicate pageSize 0) true).2.orderly
      split
      · next done =>
        rw [done] at replaced
        exact replaced
      · next done =>
        rw [done] at replaced
        exact ih replaced

/-- A store that has just been opened is a table. -/
theorem shows_openAt {made after : Volume} {c : Config} {capacity : Nat} {policy : CachePolicy}
    {counters : Counters} {t : Trouble} {s : PageStore} (directory : v.createDirectories dir = .ok made)
    (orderly : made.Orderly h dir place)
    (unlinked : ∀ name link, made.entry? (place.child name) ≠ some (.link link))
    (opened : openAt c dir (.create capacity policy) counters v t = (.ok s, after)) :
    Shows h place (s.table place) s := by
  obtain ⟨_, names, known, u, made', -, found, done, rfl⟩ := openAt_eq_ok opened
  cases directory.symm.trans made'
  have formatted := orderly_format (orderly_discover orderly unlinked found) t c.pageSize known
    (configured c)
  rw [done] at formatted
  exact shows_table formatted (Cache.agrees_create capacity policy _)

end Opening

end PageStore

end PageJournal
