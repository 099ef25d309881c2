import Mathlib.Data.List.Nodup
import PageJournal.Proofs.History
import PageJournal.Proofs.Lists
import PageJournal.Proofs.Page.Requests

/-! What a page cache keeps to, whatever was asked of it: it never holds more pages than it may, it tells them
by when they were last used, it has the bytes that each was last given, and when there is no place left it drops
the page that was not used for the longest time or refuses the new one, as its policy says. -/
namespace PageJournal

namespace Cache

/-- The page that a request has made the most recently used. -/
def used? : Request × Answer → Option PageId
  | (.lookup page, .found (some _)) => some page
  | (.insert page _, .inserted (.ok _)) => some page
  | _ => none

/-- The bytes that a request has given to a page. -/
def stored? (page : PageId) : Request × Answer → Option Bytes
  | (.insert p bytes, .inserted (.ok _)) => if p = page then some bytes else none
  | (.refresh p bytes, .refreshed true) => if p = page then some bytes else none
  | _ => none

/-- The bytes that a page was given last. -/
def lastStored (page : PageId) (history : List (Request × Answer)) : Option Bytes :=
  history.reverse.findSome? (stored? page)

def isHit : Request × Answer → Bool
  | (.lookup _, .found found) => found.isSome
  | _ => false

def isMiss : Request × Answer → Bool
  | (.lookup _, .found found) => found.isNone
  | _ => false

/-- The pages of a cache after a request, most recently used first. -/
def reordered (capacity : Nat) (pages : List PageId) : Request × Answer → List PageId
  | (.lookup page, .found (some _)) => page :: pages.erase page
  | (.insert page _, .inserted (.ok _)) =>
    page :: if page ∈ pages then pages.erase page
      else if pages.length < capacity then pages else pages.dropLast
  | (.remove page, .removed true) => pages.erase page
  | _ => pages

/-- The pages are those that were used, each once, the last one first. -/
structure Recent (history : List (Request × Answer)) (pages : List PageId) : Prop where
  distinct : pages.Nodup
  used : ∀ p ∈ pages, ∃ x ∈ history, used? x = some p
  order : pages.Pairwise fun p q => Since (used? · = some p) (used? · = some q) history

variable {c after : Cache} {r : Request} {a : Answer} {page : PageId} {history : List (Request × Answer)}
  {pages rest : List PageId} {x : Request × Answer}

theorem lastStored_concat (page : PageId) (history : List (Request × Answer)) (x : Request × Answer) :
    lastStored page (history ++ [x]) = (stored? page x).or (lastStored page history) := by
  rw [lastStored, List.reverse_append, List.findSome?_append, List.reverse_singleton,
    List.findSome?_singleton, lastStored]

theorem ids_others (distinct : c.ids.Nodup) (page : PageId) :
    (c.others page).map (·.page) = c.ids.erase page := by
  rw [distinct.erase_eq_filter, ids, List.filter_map, others]
  rfl

theorem Serves.reorders (serves : Serves c r a after) (distinct : c.ids.Nodup) :
    after.ids = reordered c.capacity c.ids (r, a) := by
  have length : c.ids.length = c.entries.length := List.length_map _
  cases serves with
  | @hit page e there =>
    exact congrArg₂ List.cons (entry?_eq_some there).2 (ids_others distinct page)
  | @replaced page bytes old there enabled =>
    rw [reordered, if_pos (mem_ids.mpr ⟨old, there⟩)]
    exact congrArg (page :: ·) (ids_others distinct page)
  | @added page bytes absent room =>
    rw [reordered, if_neg absent, if_pos (length ▸ room)]
    rfl
  | @evicted page bytes absent enabled full evicts =>
    rw [reordered, if_neg absent, if_neg (by omega)]
    exact congrArg (page :: ·) List.map_dropLast
  | @refreshed page bytes old there =>
    refine (List.map_map ..).trans (List.map_congr_left fun e _ => ?_)
    rw [Function.comp_apply]
    split
    · next same => exact same.symm
    · rfl
  | @removed page old there => exact ids_others distinct page
  | missed | disabled | refused | unrefreshed | unremoved | shown | told => rfl

theorem Recent.use (recent : Recent history pages) (used : used? x = some page) (fewer : rest.Sublist pages)
    (apart : page ∉ rest) : Recent (history ++ [x]) (page :: rest) where
  distinct := List.nodup_cons.mpr ⟨apart, recent.distinct.sublist fewer⟩
  used p mem := by
    rcases List.mem_cons.mp mem with rfl | mem
    · exact ⟨x, by simp, used⟩
    · obtain ⟨y, old, used⟩ := recent.used p (fewer.subset mem)
      exact ⟨y, List.mem_append_left _ old, used⟩
  order := by
    refine List.pairwise_cons.mpr ⟨fun q _ => since_concat.mpr (.inl used), ?_⟩
    refine (recent.order.sublist fewer).imp_of_mem fun {p q} _ mem later => ?_
    refine since_concat.mpr (.inr ⟨later, fun again => apart ?_⟩)
    cases used.symm.trans again
    exact mem

theorem Recent.aside (recent : Recent history pages) (unused : used? x = none) (fewer : rest.Sublist pages) :
    Recent (history ++ [x]) rest where
  distinct := recent.distinct.sublist fewer
  used p mem := by
    obtain ⟨y, old, used⟩ := recent.used p (fewer.subset mem)
    exact ⟨y, List.mem_append_left _ old, used⟩
  order := by
    refine (recent.order.sublist fewer).imp fun later => since_concat.mpr (.inr ⟨later, fun again => ?_⟩)
    cases unused.symm.trans again

theorem Recent.next (recent : Recent history pages) (capacity : Nat) (x : Request × Answer) :
    Recent (history ++ [x]) (reordered capacity pages x) := by
  unfold reordered
  split
  · exact recent.use rfl List.erase_sublist recent.distinct.not_mem_erase
  · next page _ _ =>
    split
    · exact recent.use rfl List.erase_sublist recent.distinct.not_mem_erase
    · next absent =>
      split
      · exact recent.use rfl (.refl pages) absent
      · exact recent.use rfl (List.dropLast_sublist pages) fun mem => absent (List.dropLast_subset pages mem)
  · exact recent.aside rfl List.erase_sublist
  · next looked inserted removed =>
    refine recent.aside ?_ (.refl pages)
    unfold used?
    split
    · next page bytes => exact absurd rfl (looked page bytes)
    · next page bytes done => exact absurd rfl (inserted page bytes done)
    · rfl

theorem length_ids (c : Cache) : c.ids.length = c.entries.length := List.length_map _

theorem Serves.settings (serves : Serves c r a after) :
    after.capacity = c.capacity ∧ after.policy = c.policy := by
  cases serves <;> exact ⟨rfl, rfl⟩

theorem Serves.fits (serves : Serves c r a after) (distinct : c.ids.Nodup)
    (fits : c.entries.length ≤ c.capacity) : after.entries.length ≤ c.capacity := by
  rw [← length_ids] at fits ⊢
  have positive : ∀ {page}, page ∈ c.ids → (page :: c.ids.erase page).length = c.ids.length :=
    fun mem => (List.perm_cons_erase mem).length_eq.symm
  rw [serves.reorders distinct]
  cases serves with
  | hit there => rwa [reordered, positive (mem_ids.mpr ⟨_, there⟩)]
  | replaced there =>
    have mem := mem_ids.mpr ⟨_, there⟩
    rwa [reordered, if_pos mem, positive mem]
  | added absent room =>
    rw [← length_ids] at room
    rw [reordered, if_neg absent, if_pos room]
    exact room
  | evicted absent enabled full =>
    rw [← length_ids] at full
    rw [reordered, if_neg absent, if_neg (Nat.not_lt.mpr full), List.length_cons, List.length_dropLast]
    omega
  | removed there => exact Nat.le_trans (List.length_erase_le) fits
  | missed | disabled | refused | refreshed | unrefreshed | unremoved | shown | told => exact fits

theorem ne_of_absent {e : CacheEntry} (absent : page ∉ c.ids) (mem : e ∈ c.entries) : e.page ≠ page := by
  rintro rfl
  exact absent (List.mem_map_of_mem mem)

/-- A copy has the bytes that the request gave to its page, or those that it had. -/
theorem Serves.bytes (serves : Serves c r a after) {e : CacheEntry} (mem : e ∈ after.entries) :
    stored? e.page (r, a) = some e.bytes ∨
      stored? e.page (r, a) = none ∧ ∃ old ∈ c.entries, old.page = e.page ∧ old.bytes = e.bytes := by
  cases serves with
  | @hit page found there =>
    rcases List.mem_cons.mp mem with rfl | mem
    · exact .inr ⟨rfl, found, (entry?_eq_some there).1, rfl, rfl⟩
    · exact .inr ⟨rfl, e, (mem_others.mp mem).1, rfl, rfl⟩
  | replaced there =>
    rcases List.mem_cons.mp mem with rfl | mem
    · exact .inl (if_pos rfl)
    · obtain ⟨mem, other⟩ := mem_others.mp mem
      exact .inr ⟨if_neg (Ne.symm other), e, mem, rfl, rfl⟩
  | added absent =>
    rcases List.mem_cons.mp mem with rfl | mem
    · exact .inl (if_pos rfl)
    · exact .inr ⟨if_neg (Ne.symm (ne_of_absent absent mem)), e, mem, rfl, rfl⟩
  | evicted absent =>
    rcases List.mem_cons.mp mem with rfl | mem
    · exact .inl (if_pos rfl)
    · have mem := List.dropLast_subset _ mem
      exact .inr ⟨if_neg (Ne.symm (ne_of_absent absent mem)), e, mem, rfl, rfl⟩
  | @refreshed page bytes old there =>
    obtain ⟨before, old, rfl⟩ := List.mem_map.mp mem
    by_cases same : before.page = page
    · simp only [if_pos same]
      exact .inl (if_pos rfl)
    · simp only [if_neg same]
      exact .inr ⟨if_neg (Ne.symm same), before, old, rfl, rfl⟩
  | removed => exact .inr ⟨rfl, e, (mem_others.mp mem).1, rfl, rfl⟩
  | missed | disabled | refused | unrefreshed | unremoved | shown | told =>
    exact .inr ⟨rfl, e, mem, rfl, rfl⟩

namespace Metered

/-- A look-up is counted as a hit or as a miss, and nothing else is counted. -/
theorem serve_counters (m : Metered) (r : Request) :
    (m.serve r).2.counters.get .cacheHits =
      m.counters.get .cacheHits + (if isHit (r, (m.serve r).1) then 1 else 0) ∧
    (m.serve r).2.counters.get .cacheMisses =
      m.counters.get .cacheMisses + (if isMiss (r, (m.serve r).1) then 1 else 0) ∧
    ∀ k, k ≠ .cacheHits → k ≠ .cacheMisses → (m.serve r).2.counters.get k = m.counters.get k := by
  have quiet {x : Request × Answer} (noHit : isHit x = false) (noMiss : isMiss x = false) :
      m.counters.get .cacheHits = m.counters.get .cacheHits + (if isHit x then 1 else 0) ∧
      m.counters.get .cacheMisses = m.counters.get .cacheMisses + (if isMiss x then 1 else 0) ∧
      ∀ k, k ≠ .cacheHits → k ≠ .cacheMisses → m.counters.get k = m.counters.get k := by
    simp [noHit, noMiss]
  cases r with
  | lookup page =>
    rw [serve, lookupCounted]
    rcases m.cache.lookup page with ⟨_ | bytes, cache⟩
    all_goals simp +contextual [isHit, isMiss, Counters.get_tick]
  | insert page bytes =>
    rw [serve]
    split <;> exact quiet rfl rfl
  | refresh page bytes =>
    rw [serve]
    split <;> exact quiet rfl rfl
  | remove page =>
    rw [serve]
    split <;> exact quiet rfl rfl
  | entry | contains => exact quiet rfl rfl

/-- A cache that has kept to its settings, and the counters that its look-ups were added to. -/
structure Obeys (capacity : Nat) (policy : CachePolicy) (first : Counters)
    (history : List (Request × Answer)) (m : Metered) : Prop where
  settings : m.cache.capacity = capacity ∧ m.cache.policy = policy
  fits : m.cache.entries.length ≤ capacity
  recent : Recent history m.cache.ids
  bytes : ∀ e ∈ m.cache.entries, lastStored e.page history = some e.bytes
  hits : m.counters.get .cacheHits = first.get .cacheHits + UInt64.ofNat (history.countP isHit)
  misses : m.counters.get .cacheMisses = first.get .cacheMisses + UInt64.ofNat (history.countP isMiss)
  others : ∀ k, k ≠ .cacheHits → k ≠ .cacheMisses → m.counters.get k = first.get k

variable {capacity : Nat} {policy : CachePolicy} {first : Counters} {m : Metered}

theorem Obeys.next (obeys : Obeys capacity policy first history m) (r : Request) :
    Obeys capacity policy first (history ++ [(r, (m.serve r).1)]) (m.serve r).2 := by
  have serves := m.serves r
  obtain ⟨hits, misses, others⟩ := m.serve_counters r
  generalize m.serve r = result at serves hits misses others
  obtain ⟨a, after⟩ := result
  obtain ⟨sized, ruled⟩ := obeys.settings
  obtain ⟨sameSize, sameRule⟩ := serves.settings
  refine ⟨⟨sameSize.trans sized, sameRule.trans ruled⟩, ?_, ?_, fun e mem => ?_, ?_, ?_,
    fun k notHits notMisses => (others k notHits notMisses).trans (obeys.others k notHits notMisses)⟩
  · rw [← sized]
    exact serves.fits obeys.recent.distinct (sized ▸ obeys.fits)
  · rw [serves.reorders obeys.recent.distinct]
    exact obeys.recent.next _ _
  · rw [lastStored_concat]
    rcases serves.bytes mem with stored | ⟨none, old, mem, page, bytes⟩
    · rw [stored, Option.some_or]
    · rw [none, Option.none_or, ← page, obeys.bytes old mem, bytes]
  · rw [add_countP_concat, ← obeys.hits]
    exact hits
  · rw [add_countP_concat, ← obeys.misses]
    exact misses

theorem Obeys.serveAll (obeys : Obeys capacity policy first history m) (requests : List Request) :
    Obeys capacity policy first (history ++ (m.serveAll requests).1) (m.serveAll requests).2 := by
  induction requests generalizing history m with
  | nil => rwa [Metered.serveAll, List.append_nil]
  | cons r rest ih =>
    rw [Metered.serveAll, List.append_cons]
    exact ih (obeys.next r)

theorem obeys_create (capacity : Nat) (policy : CachePolicy) (first : Counters) :
    Obeys capacity policy first [] ⟨create capacity policy, first⟩ where
  settings := ⟨rfl, rfl⟩
  fits := Nat.zero_le _
  recent := ⟨.nil, nofun, .nil⟩
  bytes := nofun
  hits := (UInt64.add_zero _).symm
  misses := (UInt64.add_zero _).symm
  others _ _ _ := rfl

/-- What a cache does with any further request. -/
structure Promises (capacity : Nat) (policy : CachePolicy) (history : List (Request × Answer)) (m : Metered) :
    Prop where
  lookup : ∀ page,
    (m.serve (.lookup page)).1 = .found (if page ∈ m.cache.ids then lastStored page history else none) ∧
      (m.serve (.lookup page)).2.cache.ids =
        if page ∈ m.cache.ids then page :: m.cache.ids.erase page else m.cache.ids
  resident : ∀ page bytes, page ∈ m.cache.ids →
    (m.serve (.insert page bytes)).1 = .inserted (.ok ()) ∧
      (m.serve (.insert page bytes)).2.cache.ids = page :: m.cache.ids.erase page
  refused : ∀ page bytes, page ∉ m.cache.ids →
    capacity = 0 ∨ m.cache.ids.length = capacity ∧ policy = .refuseNew →
    m.serve (.insert page bytes) = (.inserted (.error (.cacheFull capacity)), m)
  taken : ∀ page bytes, page ∉ m.cache.ids →
    ¬ (capacity = 0 ∨ m.cache.ids.length = capacity ∧ policy = .refuseNew) →
    (m.serve (.insert page bytes)).1 = .inserted (.ok ()) ∧
      (m.serve (.insert page bytes)).2.cache.ids =
        page :: if m.cache.ids.length = capacity then m.cache.ids.dropLast else m.cache.ids
  refresh : ∀ page bytes, (m.serve (.refresh page bytes)).1 = .refreshed (decide (page ∈ m.cache.ids)) ∧
    (m.serve (.refresh page bytes)).2.cache.ids = m.cache.ids
  remove : ∀ page, (m.serve (.remove page)).1 = .removed (decide (page ∈ m.cache.ids)) ∧
    (m.serve (.remove page)).2.cache.ids = m.cache.ids.erase page
  entry : ∀ page, m.serve (.entry page) = (.entry (m.cache.entry? page), m)
  contains : ∀ page, m.serve (.contains page) = (.contained (decide (page ∈ m.cache.ids)), m)
  leaves : policy = .refuseNew → ∀ r, ∀ page ∈ m.cache.ids, page ∉ (m.serve r).2.cache.ids → r = .remove page

theorem Obeys.lookup (obeys : Obeys capacity policy first history m) (page : PageId) :
    (m.serve (.lookup page)).1 = .found (if page ∈ m.cache.ids then lastStored page history else none) ∧
      (m.serve (.lookup page)).2.cache.ids =
        if page ∈ m.cache.ids then page :: m.cache.ids.erase page else m.cache.ids := by
  have serves := m.serves (.lookup page)
  have moved := serves.reorders obeys.recent.distinct
  generalize (m.serve (.lookup page)).1 = a at serves moved
  generalize (m.serve (.lookup page)).2.cache = after at serves moved
  cases serves with
  | @hit _ e there =>
    have resident := mem_ids.mpr ⟨_, there⟩
    obtain ⟨mem, rfl⟩ := entry?_eq_some there
    rw [if_pos resident, if_pos resident, obeys.bytes e mem]
    exact ⟨rfl, moved⟩
  | missed absent =>
    rw [if_neg absent, if_neg absent]
    exact ⟨rfl, rfl⟩

theorem Obeys.resident (obeys : Obeys capacity policy first history m) {page : PageId} (bytes : Bytes)
    (mem : page ∈ m.cache.ids) : (m.serve (.insert page bytes)).1 = .inserted (.ok ()) ∧
      (m.serve (.insert page bytes)).2.cache.ids = page :: m.cache.ids.erase page := by
  rcases Serves.insert m.cache page bytes with ⟨after, done, serves⟩ | ⟨fault, -, serves⟩
  · have moved := serves.reorders obeys.recent.distinct
    rw [reordered, if_pos mem] at moved
    rw [serve, done]
    exact ⟨rfl, moved⟩
  · cases serves with
    | disabled off =>
      have none := obeys.fits
      rw [← obeys.settings.1, off, ← length_ids] at none
      exact absurd none (Nat.not_le.mpr (List.length_pos_of_mem mem))
    | refused absent => exact absurd mem absent

theorem Obeys.refused (obeys : Obeys capacity policy first history m) {page : PageId} (bytes : Bytes)
    (absent : page ∉ m.cache.ids)
    (because : capacity = 0 ∨ m.cache.ids.length = capacity ∧ policy = .refuseNew) :
    m.serve (.insert page bytes) = (.inserted (.error (.cacheFull capacity)), m) := by
  obtain ⟨rfl, rfl⟩ := obeys.settings
  rcases Serves.insert m.cache page bytes with ⟨after, -, serves⟩ | ⟨fault, failed, serves⟩
  · cases serves with
    | replaced there => exact absurd (mem_ids.mpr ⟨_, there⟩) absent
    | added absent room =>
      rw [← length_ids] at room
      omega
    | evicted absent enabled full evicts =>
      rcases because with off | ⟨-, refuses⟩
      · exact absurd off enabled
      · cases evicts.symm.trans refuses
  · rw [serve, failed]
    cases serves <;> rfl

theorem Obeys.taken (obeys : Obeys capacity policy first history m) {page : PageId} (bytes : Bytes)
    (absent : page ∉ m.cache.ids)
    (free : ¬ (capacity = 0 ∨ m.cache.ids.length = capacity ∧ policy = .refuseNew)) :
    (m.serve (.insert page bytes)).1 = .inserted (.ok ()) ∧ (m.serve (.insert page bytes)).2.cache.ids =
      page :: if m.cache.ids.length = capacity then m.cache.ids.dropLast else m.cache.ids := by
  obtain ⟨rfl, rfl⟩ := obeys.settings
  have fits := obeys.fits
  rw [← length_ids] at fits
  rcases Serves.insert m.cache page bytes with ⟨after, done, serves⟩ | ⟨fault, -, serves⟩
  · have moved := serves.reorders obeys.recent.distinct
    rw [reordered, if_neg absent] at moved
    rw [serve, done]
    refine ⟨rfl, moved.trans (congrArg (page :: ·) ?_)⟩
    by_cases full : m.cache.ids.length = m.cache.capacity
    · rw [if_pos full, if_neg (by omega)]
    · rw [if_neg full, if_pos (by omega)]
  · cases serves with
    | disabled off => exact absurd (.inl off) free
    | refused absent full refuses =>
      rw [← length_ids] at full
      exact absurd (.inr ⟨Nat.le_antisymm fits full, refuses⟩) free

/-- While new pages are refused, a page leaves only when it is removed. -/
theorem Obeys.leaves (obeys : Obeys capacity .refuseNew first history m) {r : Request} {page : PageId}
    (mem : page ∈ m.cache.ids) (gone : page ∉ (m.serve r).2.cache.ids) : r = .remove page := by
  have serves := m.serves r
  have ruled := obeys.settings.2
  rw [serves.reorders obeys.recent.distinct] at gone
  have front : ∀ p, page ∈ p :: m.cache.ids.erase p := by
    intro p
    by_cases same : page = p
    · exact same ▸ List.mem_cons_self
    · exact List.mem_cons_of_mem p ((List.mem_erase_of_ne same).mpr mem)
  generalize (m.serve r).1 = a at serves gone
  generalize (m.serve r).2.cache = after at serves
  cases serves with
  | hit there => exact absurd (front _) gone
  | replaced there =>
    rw [reordered, if_pos (mem_ids.mpr ⟨_, there⟩)] at gone
    exact absurd (front _) gone
  | added absent room =>
    rw [← length_ids] at room
    rw [reordered, if_neg absent, if_pos room] at gone
    exact absurd (List.mem_cons_of_mem _ mem) gone
  | evicted absent enabled full evicts => cases evicts.symm.trans ruled
  | @removed p old there =>
    by_cases same : page = p
    · rw [same]
    · exact absurd ((List.mem_erase_of_ne same).mpr mem) gone
  | missed | disabled | refused | refreshed | unrefreshed | unremoved | shown | told => exact absurd mem gone

theorem Obeys.refresh (obeys : Obeys capacity policy first history m) (page : PageId) (bytes : Bytes) :
    (m.serve (.refresh page bytes)).1 = .refreshed (decide (page ∈ m.cache.ids)) ∧
      (m.serve (.refresh page bytes)).2.cache.ids = m.cache.ids := by
  have serves := m.serves (.refresh page bytes)
  have moved := serves.reorders obeys.recent.distinct
  generalize (m.serve (.refresh page bytes)).1 = a at serves moved
  generalize (m.serve (.refresh page bytes)).2.cache = after at serves moved
  cases serves with
  | refreshed there => exact ⟨by rw [decide_eq_true (mem_ids.mpr ⟨_, there⟩)], moved⟩
  | unrefreshed absent => exact ⟨by rw [decide_eq_false absent], rfl⟩

theorem Obeys.remove (obeys : Obeys capacity policy first history m) (page : PageId) :
    (m.serve (.remove page)).1 = .removed (decide (page ∈ m.cache.ids)) ∧
      (m.serve (.remove page)).2.cache.ids = m.cache.ids.erase page := by
  have serves := m.serves (.remove page)
  have moved := serves.reorders obeys.recent.distinct
  generalize (m.serve (.remove page)).1 = a at serves moved
  generalize (m.serve (.remove page)).2.cache = after at serves moved
  cases serves with
  | removed there => exact ⟨by rw [decide_eq_true (mem_ids.mpr ⟨_, there⟩)], moved⟩
  | unremoved absent => exact ⟨by rw [decide_eq_false absent], (List.erase_of_not_mem absent).symm⟩

/-- Whatever was asked of a cache, it has kept to its settings and will keep to them. -/
theorem keeps_policy (capacity : Nat) (policy : CachePolicy) (first : Counters) (requests : List Request) :
    let history := (serveAll requests ⟨create capacity policy, first⟩).1
    let m := (serveAll requests ⟨create capacity policy, first⟩).2
    Obeys capacity policy first history m ∧ Promises capacity policy history m := by
  intro history m
  have obeys : Obeys capacity policy first history m := (obeys_create capacity policy first).serveAll requests
  refine ⟨obeys, obeys.lookup, fun page bytes => obeys.resident bytes,
    fun page bytes => obeys.refused bytes, fun page bytes => obeys.taken bytes, obeys.refresh, obeys.remove,
    fun page => rfl, fun page => ?_, fun refuses r page => ?_⟩
  · rw [serve, contains_eq_decide]
  · subst refuses
    exact obeys.leaves

/-- The third page takes the place of the second, for the first was used in between. -/
example : (serveAll [.insert 0 [1], .insert 1 [2], .lookup 0, .refresh 1 [3], .insert 2 [4], .lookup 1]
    ⟨create 2 .evictOldest, {}⟩).2.cache.ids = [2, 0] := by decide

end Metered

end Cache

end PageJournal
