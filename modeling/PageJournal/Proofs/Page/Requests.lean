import PageJournal.Proofs.Page.Coherence

/-! Requests to a page cache, and all that one of them can do. -/
namespace PageJournal

namespace Cache

/-- What is asked of a cache. -/
inductive Request where
  | lookup (page : PageId)
  | insert (page : PageId) (bytes : Bytes)
  | refresh (page : PageId) (bytes : Bytes)
  | remove (page : PageId)
  | entry (page : PageId)
  | contains (page : PageId)

/-- What a cache answers. -/
inductive Answer where
  | found (bytes : Option Bytes)
  | inserted (outcome : Except Fault Unit)
  | refreshed (done : Bool)
  | removed (done : Bool)
  | entry (held : Option CacheEntry)
  | contained (there : Bool)

/-- A cache and the counters that its look-ups are counted in. -/
structure Metered where
  cache : Cache
  counters : Counters

namespace Metered

def serve (m : Metered) : Request → Answer × Metered
  | .lookup page =>
    let (found, cache, counters) := m.cache.lookupCounted m.counters page
    (.found found, ⟨cache, counters⟩)
  | .insert page bytes =>
    match m.cache.insert page bytes with
    | .ok cache => (.inserted (.ok ()), { m with cache })
    | .error fault => (.inserted (.error fault), m)
  | .refresh page bytes =>
    match m.cache.refresh? page bytes with
    | some cache => (.refreshed true, { m with cache })
    | none => (.refreshed false, m)
  | .remove page =>
    match m.cache.remove? page with
    | some cache => (.removed true, { m with cache })
    | none => (.removed false, m)
  | .entry page => (.entry (m.cache.entry? page), m)
  | .contains page => (.contained (m.cache.contains page), m)

/-- The history of some requests, and what they leave. -/
def serveAll : List Request → Metered → List (Request × Answer) × Metered
  | [], m => ([], m)
  | r :: rest, m =>
    ((r, (m.serve r).1) :: (serveAll rest (m.serve r).2).1, (serveAll rest (m.serve r).2).2)

end Metered

variable {c after : Cache} {page : PageId} {bytes : Bytes}

theorem entry?_eq_none_iff : c.entry? page = none ↔ page ∉ c.ids := by
  simp [Cache.entry?, ids]

theorem mem_ids : page ∈ c.ids ↔ ∃ e, c.entry? page = some e := by
  rw [← Option.ne_none_iff_exists', ne_eq, entry?_eq_none_iff, not_not]

theorem contains_eq_decide : c.contains page = decide (page ∈ c.ids) := by
  rw [contains, Bool.eq_iff_iff, Option.isSome_iff_exists, decide_eq_true_iff, mem_ids]

/-- What a cache can do when it serves a request. -/
inductive Serves (c : Cache) : Request → Answer → Cache → Prop where
  | hit {page : PageId} {e : CacheEntry} (there : c.entry? page = some e) :
    Serves c (.lookup page) (.found (some e.bytes))
      { c with entries := { e with readers := e.readers + 1 } :: c.others page }
  | missed {page : PageId} (absent : page ∉ c.ids) : Serves c (.lookup page) (.found none) c
  | replaced {page : PageId} {bytes : Bytes} {old : CacheEntry} (there : c.entry? page = some old)
    (enabled : c.capacity ≠ 0) :
    Serves c (.insert page bytes) (.inserted (.ok ()))
      { c with
        entries := c.fresh page bytes :: c.others page
        retired := old :: c.retired
        nextSerial := c.nextSerial + 1 }
  | added {page : PageId} {bytes : Bytes} (absent : page ∉ c.ids) (room : c.entries.length < c.capacity) :
    Serves c (.insert page bytes) (.inserted (.ok ()))
      { c with
        entries := c.fresh page bytes :: c.entries
        nextSerial := c.nextSerial + 1 }
  | evicted {page : PageId} {bytes : Bytes} (absent : page ∉ c.ids) (enabled : c.capacity ≠ 0)
    (full : c.capacity ≤ c.entries.length) (evicts : c.policy = .evictOldest) :
    Serves c (.insert page bytes) (.inserted (.ok ()))
      { c with
        entries := c.fresh page bytes :: c.entries.dropLast
        retired := c.entries.getLast?.toList ++ c.retired
        nextSerial := c.nextSerial + 1 }
  | disabled {page : PageId} {bytes : Bytes} (off : c.capacity = 0) :
    Serves c (.insert page bytes) (.inserted (.error (.cacheFull c.capacity))) c
  | refused {page : PageId} {bytes : Bytes} (absent : page ∉ c.ids)
    (full : c.capacity ≤ c.entries.length) (refuses : c.policy = .refuseNew) :
    Serves c (.insert page bytes) (.inserted (.error (.cacheFull c.capacity))) c
  | refreshed {page : PageId} {bytes : Bytes} {old : CacheEntry} (there : c.entry? page = some old) :
    Serves c (.refresh page bytes) (.refreshed true)
      { c with
        entries := c.entries.map fun e => if e.page = page then c.fresh page bytes else e
        retired := old :: c.retired
        nextSerial := c.nextSerial + 1 }
  | unrefreshed {page : PageId} {bytes : Bytes} (absent : page ∉ c.ids) :
    Serves c (.refresh page bytes) (.refreshed false) c
  | removed {page : PageId} {old : CacheEntry} (there : c.entry? page = some old) :
    Serves c (.remove page) (.removed true)
      { c with entries := c.others page, retired := old :: c.retired }
  | unremoved {page : PageId} (absent : page ∉ c.ids) : Serves c (.remove page) (.removed false) c
  | shown {page : PageId} : Serves c (.entry page) (.entry (c.entry? page)) c
  | told {page : PageId} : Serves c (.contains page) (.contained (decide (page ∈ c.ids))) c

theorem Serves.lookup (c : Cache) (page : PageId) :
    Serves c (.lookup page) (.found (c.lookup page).1) (c.lookup page).2 := by
  rcases found : c.entry? page with _ | e
  · simp only [Cache.lookup, found]
    exact .missed (entry?_eq_none_iff.mp found)
  · simp only [Cache.lookup, found]
    exact .hit found

theorem Serves.insert (c : Cache) (page : PageId) (bytes : Bytes) :
    (∃ after, c.insert page bytes = .ok after ∧ Serves c (.insert page bytes) (.inserted (.ok ())) after) ∨
    ∃ fault, c.insert page bytes = .error fault ∧ Serves c (.insert page bytes) (.inserted (.error fault)) c := by
  unfold Cache.insert
  by_cases off : c.capacity = 0
  · rw [if_pos off, ← off]
    exact .inr ⟨_, rfl, .disabled off⟩
  · rw [if_neg off]
    rcases found : c.entry? page with _ | old
    · have absent := entry?_eq_none_iff.mp found
      by_cases full : c.capacity ≤ c.entries.length
      · cases policy : c.policy with
        | refuseNew =>
          refine .inr ⟨_, if_pos ?_, .refused absent full policy⟩
          simp [contains, isFull, found, full]
        | evictOldest =>
          refine .inl ⟨_, (if_neg (by simp)).trans ?_, .evicted absent off full policy⟩
          simp [isFull, found, full, install]
      · refine .inl ⟨_, (if_neg (by simp [isFull, full])).trans ?_, .added absent (Nat.not_le.mp full)⟩
        simp [isFull, found, full, install]
    · refine .inl ⟨_, (if_neg (by simp [contains, found])).trans ?_, .replaced found off⟩
      simp [found, install]

theorem Metered.serves (m : Metered) (r : Request) : Serves m.cache r (m.serve r).1 (m.serve r).2.cache := by
  cases r with
  | lookup page =>
    have looked := Serves.lookup m.cache page
    rw [Metered.serve, lookupCounted]
    generalize m.cache.lookup page = result at looked
    obtain ⟨_ | bytes, cache⟩ := result
    all_goals exact looked
  | insert page bytes =>
    rcases Serves.insert m.cache page bytes with ⟨after, done, serves⟩ | ⟨fault, failed, serves⟩
    · rw [Metered.serve, done]
      exact serves
    · rw [Metered.serve, failed]
      exact serves
  | refresh page bytes =>
    rcases found : m.cache.entry? page with _ | old
    · rw [Metered.serve, refresh?, found]
      exact .unrefreshed (entry?_eq_none_iff.mp found)
    · rw [Metered.serve, refresh?, found]
      exact .refreshed found
  | remove page =>
    rcases found : m.cache.entry? page with _ | old
    · rw [Metered.serve, remove?, found]
      exact .unremoved (entry?_eq_none_iff.mp found)
    · rw [Metered.serve, remove?, found]
      exact .removed found
  | entry page => exact .shown
  | contains page =>
    rw [Metered.serve, contains_eq_decide]
    exact .told

end Cache

end PageJournal
