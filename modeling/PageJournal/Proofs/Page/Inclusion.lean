import PageJournal.Proofs.Lists
import PageJournal.Proofs.Page.Calls
import PageJournal.Proofs.Page.Policy
import PageJournal.Proofs.Word

/-! A larger cache does not do worse. A cache that evicts the page that was not used for the longest time holds the
front of one list, however small it is: the pages that were fetched, the last one first. So a smaller cache holds a
beginning of what a larger one holds, and hits where it hits. -/
namespace PageJournal

namespace PageStore

variable {s : PageStore} {page : PageId}

/-- The store has the page, and its file is as long as a page. -/
def isReadable (s : PageStore) (page : PageId) : Bool := page < s.pageCount && (s.readFile page).isOk

/-- A fetch is served from the cache. -/
def isHit (s : PageStore) (page : PageId) : Bool := page < s.pageCount && s.cache.contains page

/-- A fetch reads the page's file. -/
def isRead (s : PageStore) (page : PageId) : Bool := s.isReadable page && !s.cache.contains page

/-- All that a fetch can come to. -/
inductive Fetches (s : PageStore) (page : PageId) : PageStore → Prop
  | outside (out : s.pageCount ≤ page) : Fetches s page s
  | hit (inside : page < s.pageCount) (there : page ∈ s.cache.ids) :
    Fetches s page { s with cache := (s.cache.lookup page).2, counters := s.counters.tick .cacheHits }
  | failed (inside : page < s.pageCount) (absent : page ∉ s.cache.ids) (unreadable : s.isReadable page = false) :
    Fetches s page { s with counters := s.counters.tick .cacheMisses }
  | read {bytes : Bytes} (inside : page < s.pageCount) (absent : page ∉ s.cache.ids)
      (readable : s.isReadable page = true) :
    Fetches s page { s with
      cache := s.cache.offer page bytes
      counters := (s.counters.tick .cacheMisses).tick .reads }

theorem fetches_fetch (s : PageStore) (page : PageId) : Fetches s page (s.fetch page).2 := by
  unfold fetch checkRange
  by_cases out : s.pageCount ≤ page
  · rw [if_pos out]
    exact .outside out
  · have inside := UInt32.not_le.mp out
    rw [if_neg out]
    rcases found : s.cache.entry? page with _ | e
    · have absent := Cache.entry?_eq_none_iff.mp found
      have missed : s.lookup page = (none, { s with counters := s.counters.tick .cacheMisses }) := by
        unfold lookup Cache.lookupCounted Cache.lookup
        rw [found]
      have same : readFile { s with counters := s.counters.tick .cacheMisses } page = s.readFile page := rfl
      simp only [missed, fetchMissed, readCounted, same]
      rcases read : s.readFile page with fault | bytes
      · exact .failed inside absent (by simp [isReadable, read, Except.isOk, Except.toBool])
      · exact .read inside absent (by simp [isReadable, read, inside, Except.isOk, Except.toBool])
    · have there := Cache.mem_ids.mpr ⟨e, found⟩
      have hit : s.lookup page = (some e.bytes, { s with
          cache := (s.cache.lookup page).2
          counters := s.counters.tick .cacheHits }) := by
        unfold lookup Cache.lookupCounted Cache.lookup
        rw [found]
      rw [hit]
      exact .hit inside there

/-- The pages that were read, the last one first, when one more is fetched. -/
def restack (readable : PageId → Bool) (stack : List PageId) (page : PageId) : List PageId :=
  if readable page then page :: stack.erase page else stack

/-- The cache holds the first pages of the list, as many as it may. -/
structure Stacked (stack : List PageId) (capacity : Nat) (s : PageStore) : Prop where
  sized : s.cache.capacity = capacity
  policy : s.cache.policy = .evictOldest
  ids : s.cache.ids = stack.take capacity
  distinct : stack.Nodup
  readable : ∀ p ∈ stack, s.isReadable p = true

variable {stack : List PageId} {capacity : Nat}

theorem Stacked.restack_distinct (stacked : Stacked stack capacity s) (page : PageId) :
    (restack s.isReadable stack page).Nodup := by
  unfold restack
  split
  · exact List.nodup_cons.mpr ⟨stacked.distinct.not_mem_erase, stacked.distinct.erase page⟩
  · exact stacked.distinct

theorem Stacked.restack_readable (stacked : Stacked stack capacity s) (page : PageId) :
    ∀ p ∈ restack s.isReadable stack page, s.isReadable p = true := by
  unfold restack
  split
  · next readable =>
    intro p mem
    rcases List.mem_cons.mp mem with rfl | mem
    · exact readable
    · exact stacked.readable p (List.mem_of_mem_erase mem)
  · exact stacked.readable

/-- A fetch leaves everything but the cache and the counters alone. -/
theorem isReadable_fetch (s : PageStore) (page : PageId) : (s.fetch page).2.isReadable = s.isReadable := by
  obtain ⟨cache, counters, frame⟩ := s.fetch_frame page
  rw [frame]
  rfl

theorem pageCount_fetch (s : PageStore) (page : PageId) : (s.fetch page).2.pageCount = s.pageCount := by
  obtain ⟨cache, counters, frame⟩ := s.fetch_frame page
  rw [frame]

/-- A page that is used goes to the front, and the last one leaves if there is no place for it. -/
theorem ids_hit (stacked : Stacked stack capacity s) (there : page ∈ s.cache.ids) :
    (s.cache.lookup page).2.ids = (page :: stack.erase page).take capacity := by
  have distinct : s.cache.ids.Nodup := by
    rw [stacked.ids]
    exact stacked.distinct.sublist (List.take_sublist ..)
  obtain ⟨e, found⟩ := Cache.mem_ids.mp there
  have answer : (s.cache.lookup page).1 = some e.bytes := by rw [Cache.lookup, found]
  have moved := (Cache.Serves.lookup s.cache page).reorders distinct
  rw [answer] at moved
  have moved : (s.cache.lookup page).2.ids = page :: s.cache.ids.erase page := moved
  rw [stacked.ids] at moved there
  rw [moved]
  cases capacity with
  | zero => cases there
  | succ n => rw [take_erase_of_mem there, List.take_succ_cons]

theorem ids_read (stacked : Stacked stack capacity s) (absent : page ∉ s.cache.ids) (bytes : Bytes) :
    (s.cache.offer page bytes).ids = (page :: stack.erase page).take capacity := by
  have sized := stacked.sized
  have beyond : page ∉ stack.take capacity := by rwa [← stacked.ids]
  have length := s.cache.length_ids
  rw [stacked.ids] at length
  unfold Cache.offer
  rcases Cache.Serves.insert s.cache page bytes with ⟨after, done, serves⟩ | ⟨fault, failed, serves⟩
  · rw [done]
    have front : 0 < capacity → (page :: stack.erase page).take capacity = page :: stack.take (capacity - 1) := by
      intro positive
      obtain ⟨n, rfl⟩ := Nat.exists_eq_succ_of_ne_zero (Nat.ne_of_gt positive)
      rw [List.take_succ_cons, Nat.succ_sub_one, take_erase_of_not_mem]
      intro mem
      exact beyond (List.take_subset_take_left stack (Nat.le_succ n) mem)
    cases serves with
    | replaced there => exact absurd (Cache.mem_ids.mpr ⟨_, there⟩) absent
    | added absent room =>
      rw [front (by omega)]
      have few : stack.length ≤ capacity - 1 := by
        rw [List.length_take] at length
        omega
      have ids : s.cache.ids = stack.take (capacity - 1) := by
        rw [stacked.ids, List.take_of_length_le few, List.take_of_length_le (by omega)]
      exact congrArg (page :: ·) ids
    | evicted absent enabled full evicts =>
      rw [front (by omega)]
      have ids : s.cache.ids.dropLast = stack.take (capacity - 1) := by
        rw [stacked.ids, List.dropLast_eq_take, List.take_take, length]
        congr 1
        rw [List.length_take] at length
        omega
      exact congrArg (page :: ·) (List.map_dropLast.trans ids)
  · rw [failed]
    cases serves with
    | disabled off =>
      have none : capacity = 0 := sized.symm.trans off
      rw [stacked.ids, none, List.take_zero, List.take_zero]
    | refused absent full refuses => cases refuses.symm.trans stacked.policy

theorem offer_settings (c : Cache) (page : PageId) (bytes : Bytes) :
    (c.offer page bytes).capacity = c.capacity ∧ (c.offer page bytes).policy = c.policy := by
  unfold Cache.offer
  rcases Cache.Serves.insert c page bytes with ⟨after, done, serves⟩ | ⟨fault, failed, serves⟩
  · rw [done]
    exact serves.settings
  · rw [failed]
    exact ⟨rfl, rfl⟩

theorem Stacked.cache_fetch (stacked : Stacked stack capacity s) (page : PageId) :
    (s.fetch page).2.cache.capacity = capacity ∧ (s.fetch page).2.cache.policy = .evictOldest ∧
      (s.fetch page).2.cache.ids = (restack s.isReadable stack page).take capacity := by
  have fetches := s.fetches_fetch page
  generalize (s.fetch page).2 = after at fetches
  unfold restack
  cases fetches with
  | outside out =>
    have unreadable : s.isReadable page = false := by simp [isReadable, UInt32.not_lt.mpr out]
    rw [unreadable]
    exact ⟨stacked.sized, stacked.policy, stacked.ids⟩
  | failed inside absent unreadable =>
    rw [unreadable]
    exact ⟨stacked.sized, stacked.policy, stacked.ids⟩
  | hit inside there =>
    have known : s.isReadable page = true := by
      apply stacked.readable
      rw [stacked.ids] at there
      exact List.mem_of_mem_take there
    obtain ⟨sized, policy⟩ := (Cache.Serves.lookup s.cache page).settings
    rw [if_pos known]
    exact ⟨sized.trans stacked.sized, policy.trans stacked.policy, ids_hit stacked there⟩
  | @read bytes inside absent known =>
    obtain ⟨sized, policy⟩ := offer_settings s.cache page bytes
    rw [if_pos known]
    exact ⟨sized.trans stacked.sized, policy.trans stacked.policy, ids_read stacked absent bytes⟩

theorem Stacked.fetch (stacked : Stacked stack capacity s) (page : PageId) :
    Stacked (restack s.isReadable stack page) capacity (s.fetch page).2 := by
  obtain ⟨sized, policy, ids⟩ := stacked.cache_fetch page
  refine ⟨sized, policy, ids, stacked.restack_distinct page, ?_⟩
  rw [isReadable_fetch]
  exact stacked.restack_readable page

/-- Pages that are fetched one after another. -/
def fetchAll (pages : List PageId) (s : PageStore) : PageStore := pages.foldl (fun s page => (s.fetch page).2) s

/-- How many of these fetches are served from the cache. -/
def hits : List PageId → PageStore → Nat
  | [], _ => 0
  | page :: rest, s => (if s.isHit page then 1 else 0) + hits rest (s.fetch page).2

/-- How many of these fetches read a page's file. -/
def fileReads : List PageId → PageStore → Nat
  | [], _ => 0
  | page :: rest, s => (if s.isRead page then 1 else 0) + fileReads rest (s.fetch page).2

theorem Stacked.fetchAll (stacked : Stacked stack capacity s) (pages : List PageId) :
    Stacked (pages.foldl (restack s.isReadable) stack) capacity (s.fetchAll pages) := by
  induction pages generalizing s stack with
  | nil => exact stacked
  | cons page rest ih =>
    have fetched := ih (stacked.fetch page)
    rw [isReadable_fetch] at fetched
    exact fetched

theorem pageCount_fetchAll (pages : List PageId) (s : PageStore) : (s.fetchAll pages).pageCount = s.pageCount := by
  induction pages generalizing s with
  | nil => rfl
  | cons page rest ih => exact (ih (s.fetch page).2).trans (s.pageCount_fetch page)

theorem fetch_counts (s : PageStore) (page : PageId) :
    (s.fetch page).2.counters.get .cacheHits =
      s.counters.get .cacheHits + (if s.isHit page then 1 else 0) ∧
    (s.fetch page).2.counters.get .reads = s.counters.get .reads + (if s.isRead page then 1 else 0) := by
  have fetches := s.fetches_fetch page
  generalize (s.fetch page).2 = after at fetches
  cases fetches with
  | outside out => simp [isHit, isRead, isReadable, UInt32.not_lt.mpr out]
  | hit inside there =>
    simp [isHit, isRead, Cache.contains_eq_decide, inside, there, Counters.get_tick]
  | failed inside absent unreadable =>
    simp [isHit, isRead, Cache.contains_eq_decide, absent, unreadable, Counters.get_tick]
  | read inside absent readable =>
    simp [isHit, isRead, Cache.contains_eq_decide, absent, readable, Counters.get_tick]

theorem fetchAll_counts (pages : List PageId) (s : PageStore) :
    (s.fetchAll pages).counters.get .cacheHits = s.counters.get .cacheHits + UInt64.ofNat (hits pages s) ∧
    (s.fetchAll pages).counters.get .reads = s.counters.get .reads + UInt64.ofNat (fileReads pages s) := by
  induction pages generalizing s with
  | nil => exact ⟨(UInt64.add_zero _).symm, (UInt64.add_zero _).symm⟩
  | cons page rest ih =>
    obtain ⟨hit, read⟩ := fetch_counts s page
    obtain ⟨laterHits, laterReads⟩ := ih (s.fetch page).2
    rw [hit] at laterHits
    rw [read] at laterReads
    have word : ∀ (P : Bool) (n : Nat), (if P then (1 : UInt64) else 0) + UInt64.ofNat n =
        UInt64.ofNat ((if P then 1 else 0) + n) := by
      intro P n
      rw [UInt64.ofNat_add]
      cases P <;> rfl
    rw [hits, fileReads, ← word, ← word, ← UInt64.add_assoc, ← UInt64.add_assoc]
    exact ⟨laterHits, laterReads⟩

/-- The store with an empty cache that evicts the oldest page. -/
def withCapacity (s : PageStore) (capacity : Nat) : PageStore := { s with cache := .create capacity .evictOldest }

theorem stacked_withCapacity (s : PageStore) (capacity : Nat) : Stacked [] capacity (s.withCapacity capacity) :=
  ⟨rfl, rfl, List.take_nil.symm, List.nodup_nil, nofun⟩

section Two

variable {a b : PageStore} {small large : Nat}

theorem Stacked.beginning (first : Stacked stack small a) (second : Stacked stack large b) (smaller : small ≤ large) :
    a.cache.ids <+: b.cache.ids := by
  rw [first.ids, second.ids]
  exact List.take_prefix_take_left smaller

theorem Stacked.hit (first : Stacked stack small a) (second : Stacked stack large b) (smaller : small ≤ large)
    (pageCount : a.pageCount = b.pageCount) (hit : a.isHit page = true) : b.isHit page = true := by
  unfold isHit at hit ⊢
  rw [Bool.and_eq_true, Cache.contains_eq_decide, decide_eq_true_iff, decide_eq_true_iff] at hit ⊢
  exact ⟨pageCount ▸ hit.1, (first.beginning second smaller).subset hit.2⟩

theorem Stacked.read (first : Stacked stack small a) (second : Stacked stack large b) (smaller : small ≤ large)
    (readable : a.isReadable = b.isReadable) (read : b.isRead page = true) : a.isRead page = true := by
  unfold isRead at read ⊢
  rw [Bool.and_eq_true, Bool.not_eq_true', Cache.contains_eq_decide, decide_eq_false_iff_not] at read ⊢
  exact ⟨readable ▸ read.1, fun mem => read.2 ((first.beginning second smaller).subset mem)⟩

theorem Stacked.fewer (first : Stacked stack small a) (second : Stacked stack large b) (smaller : small ≤ large)
    (pageCount : a.pageCount = b.pageCount) (readable : a.isReadable = b.isReadable) (pages : List PageId) :
    hits pages a ≤ hits pages b ∧ fileReads pages b ≤ fileReads pages a := by
  induction pages generalizing a b stack with
  | nil => exact ⟨Nat.le_refl _, Nat.le_refl _⟩
  | cons page rest ih =>
    have next := second.fetch page
    rw [← readable] at next
    obtain ⟨moreHits, fewerReads⟩ := ih (first.fetch page) next
      (by rw [pageCount_fetch, pageCount_fetch, pageCount])
      (by rw [isReadable_fetch, isReadable_fetch, readable])
    have hit : a.isHit page = true → b.isHit page = true := first.hit second smaller pageCount
    have read : b.isRead page = true → a.isRead page = true := first.read second smaller readable
    rw [hits, hits, fileReads, fileReads]
    constructor
    · split
      · next served =>
        rw [if_pos (hit served)]
        omega
      · omega
    · split
      · next fetched =>
        rw [if_pos (read fetched)]
        omega
      · omega

end Two

theorem counted_le_length (pages : List PageId) (s : PageStore) :
    hits pages s ≤ pages.length ∧ fileReads pages s ≤ pages.length := by
  induction pages generalizing s with
  | nil => exact ⟨Nat.le_refl _, Nat.le_refl _⟩
  | cons page rest ih =>
    obtain ⟨hit, read⟩ := ih (s.fetch page).2
    rw [hits, fileReads, List.length_cons]
    constructor <;> split <;> omega

/-- Whatever is fetched, a larger cache holds all that a smaller one holds, in the same order and before all else,
and hits where the smaller one hits. So it hits no less often and reads files no more often, as long as the counters
do not wrap around. -/
theorem larger_cache_hits_more {small large : Nat} (smaller : small ≤ large) (s : PageStore)
    (pages : List PageId) :
    let a := s.withCapacity small
    let b := s.withCapacity large
    (a.fetchAll pages).cache.ids <+: (b.fetchAll pages).cache.ids ∧
    (∀ page, (a.fetchAll pages).isHit page = true → (b.fetchAll pages).isHit page = true) ∧
    hits pages a ≤ hits pages b ∧ fileReads pages b ≤ fileReads pages a ∧
    (∀ capacity, ((s.withCapacity capacity).fetchAll pages).counters.get .cacheHits =
      s.counters.get .cacheHits + UInt64.ofNat (hits pages (s.withCapacity capacity))) ∧
    (∀ capacity, ((s.withCapacity capacity).fetchAll pages).counters.get .reads =
      s.counters.get .reads + UInt64.ofNat (fileReads pages (s.withCapacity capacity))) ∧
    ((s.counters.get .cacheHits).toNat + pages.length < 2 ^ 64 →
      (a.fetchAll pages).counters.get .cacheHits ≤ (b.fetchAll pages).counters.get .cacheHits) ∧
    ((s.counters.get .reads).toNat + pages.length < 2 ^ 64 →
      (b.fetchAll pages).counters.get .reads ≤ (a.fetchAll pages).counters.get .reads) := by
  intro a b
  have first := s.stacked_withCapacity small
  have second := s.stacked_withCapacity large
  have before := first.fetchAll pages
  have after := second.fetchAll pages
  obtain ⟨moreHits, fewerReads⟩ := first.fewer second smaller rfl rfl pages
  have hitCounts := fun capacity => (fetchAll_counts pages (s.withCapacity capacity)).1
  have readCounts := fun capacity => (fetchAll_counts pages (s.withCapacity capacity)).2
  refine ⟨before.beginning after smaller, fun page hit => before.hit after smaller ?_ hit, moreHits, fewerReads,
    hitCounts, readCounts, fun fits => ?_, fun fits => ?_⟩
  · rw [pageCount_fetchAll, pageCount_fetchAll]
    rfl
  · rw [hitCounts small, hitCounts large]
    exact add_ofNat_le moreHits (counted_le_length pages b).1 fits
  · rw [readCounts small, readCounts large]
    exact add_ofNat_le fewerReads (counted_le_length pages a).2 fits

/-- Two pages. -/
def twoOnDisk : PageStore where
  disk := ⟨[(["pages"], .directory), (["pages", "page_0.dbp"], .file 0 [4, 3, 2, 1]),
    (["pages", "page_1.dbp"], .file 1 [0, 0, 0, 0])], 2⟩
  dir := ["pages"]
  pageSize := 4
  pageCount := 2
  dirty := []
  cache := .create 1 .refuseNew
  counters := {}

/-- A cache of one page never hits when two pages take turns, one of two pages reads each of them once. -/
theorem larger_cache_hits_more_turns :
    let turns : List PageId := [0, 1, 0, 1]
    let a := (twoOnDisk.withCapacity 1).fetchAll turns
    let b := (twoOnDisk.withCapacity 2).fetchAll turns
    a.cache.ids = [1] ∧ b.cache.ids = [1, 0] ∧ a.cache.ids <+: b.cache.ids ∧
      a.isHit 0 = false ∧ b.isHit 0 = true ∧
      a.counters.get .cacheHits ≤ b.counters.get .cacheHits ∧ b.counters.get .cacheHits = 2 ∧
      b.counters.get .reads ≤ a.counters.get .reads ∧ a.counters.get .reads = 4 := by
  intro turns a b
  obtain ⟨held, -, -, -, -, -, hit, read⟩ := larger_cache_hits_more (by decide : 1 ≤ 2) twoOnDisk turns
  refine ⟨by decide, by decide, held, by decide, by decide, hit (by decide), by decide, read (by decide), ?_⟩
  decide

end PageStore

end PageJournal
