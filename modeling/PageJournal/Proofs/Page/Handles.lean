import Mathlib.Algebra.BigOperators.Group.Finset.Basic
import PageJournal.Proofs.Lists
import PageJournal.Proofs.Page.Policy

/-! Copies of pages that somebody keeps hold of. Whatever is asked of the cache afterwards, a copy keeps its page and its
bytes, counts the look-ups that it serves, and tells whether it is the one that the cache has now. -/
namespace PageJournal

namespace Cache

/-- Every copy that was ever made: those in the cache, and those that left it. -/
def copies (c : Cache) : List CacheEntry := c.entries ++ c.retired

/-- A held copy is the one that the cache has. -/
def isResident (c : Cache) (serial : Nat) : Bool := (c.held? serial).any (·.2)

/-- How many look-ups a copy has counted. -/
def readersOf (c : Cache) (serial : Nat) : Nat := (c.held? serial).elim 0 fun held => held.1.readers.toNat

/-- The copy that a request is served from. -/
def source? (c : Cache) : Request → Option Nat
  | .lookup page => (c.entry? page).map (·.serial)
  | _ => none

/-- The request has made a copy. -/
def creates : Request × Answer → Bool
  | (.insert _ _, .inserted (.ok _)) => true
  | (.refresh _ _, .refreshed done) => done
  | _ => false

variable {c after : Cache} {r : Request} {a : Answer} {page : PageId} {e : CacheEntry}

theorem perm_others (distinct : c.ids.Nodup) (there : c.entry? page = some e) :
    c.entries.Perm (e :: c.others page) := perm_find_filter distinct there

/-- What becomes of the copies: one counts a look-up, one is made, or all stay as they were. -/
inductive Shelves (c after : Cache) : Option Nat → Bool → Prop
  | served {e : CacheEntry} {rest : List CacheEntry} (before : c.copies.Perm (e :: rest))
    (counted : after.copies.Perm ({ e with readers := e.readers + 1 } :: rest))
    (next : after.nextSerial = c.nextSerial) : Shelves c after (some e.serial) false
  | made {page : PageId} {bytes : Bytes} (added : after.copies.Perm (c.fresh page bytes :: c.copies))
    (next : after.nextSerial = c.nextSerial + 1) : Shelves c after none true
  | kept (same : after.copies.Perm c.copies) (next : after.nextSerial = c.nextSerial) : Shelves c after none false

theorem Serves.shelves (serves : Serves c r a after) (distinct : c.ids.Nodup) :
    Shelves c after (c.source? r) (creates (r, a)) := by
  -- a copy that is replaced or removed is found among the retired ones
  have retire : ∀ {page old}, c.entry? page = some old →
      (c.others page ++ old :: c.retired).Perm c.copies := fun there =>
    List.perm_middle.trans ((perm_others distinct there).symm.append_right _)
  cases serves with
  | @hit page e there =>
    rw [source?, there]
    exact .served ((perm_others distinct there).append_right _) (.refl _) rfl
  | @missed page absent =>
    rw [source?, entry?_eq_none_iff.mpr absent]
    exact .kept (.refl _) rfl
  | replaced there => exact .made ((retire there).cons _) rfl
  | added absent room => exact .made (.refl _) rfl
  | evicted absent enabled full evicts =>
    have whole : c.entries.dropLast ++ (c.entries.getLast?.toList ++ c.retired) = c.copies := by
      rw [← List.append_assoc, dropLast_append_toList, copies]
    exact .made (.of_eq (congrArg (List.cons _) whole)) rfl
  | @refreshed page bytes old there =>
    have replaced := (perm_others distinct there).map fun e => if e.page = page then c.fresh page bytes else e
    rw [List.map_cons, if_pos (entry?_eq_some there).2,
      List.map_congr_left fun e mem => if_neg (mem_others.mp mem).2, List.map_id'] at replaced
    exact .made ((replaced.append_right _).trans ((retire there).cons _)) rfl
  | removed there => exact .kept (retire there) rfl
  | disabled | refused | unrefreshed | unremoved | shown | told => exact .kept (.refl _) rfl

/-- Every copy has a number of its own, below the next one, and tells how often it was looked up. -/
structure Shelved (uses : List Nat) (made : Nat) (c : Cache) : Prop where
  number : c.nextSerial = made
  serials : (c.copies.map (·.serial)).Perm (List.range made)
  readers : ∀ e ∈ c.copies, e.readers = UInt32.ofNat (uses.count e.serial)
  below : ∀ serial ∈ uses, serial < made

variable {uses : List Nat} {made : Nat}

theorem Shelved.served (shelved : Shelved uses made c) {rest : List CacheEntry}
    (before : c.copies.Perm (e :: rest))
    (counted : after.copies.Perm ({ e with readers := e.readers + 1 } :: rest))
    (next : after.nextSerial = c.nextSerial) : Shelved (uses ++ [e.serial]) made after := by
  have serials : ((e :: rest).map (·.serial)).Perm (List.range made) := (before.map _).symm.trans shelved.serials
  obtain ⟨apart, -⟩ := List.nodup_cons.mp (serials.nodup_iff.mpr List.nodup_range)
  have known : ∀ x ∈ e :: rest, x.readers = UInt32.ofNat (uses.count x.serial) := fun x mem =>
    shelved.readers x (before.mem_iff.mpr mem)
  refine ⟨next.trans shelved.number, (counted.map _).trans serials, fun x mem => ?_, fun serial mem => ?_⟩
  · rw [List.count_append]
    rcases List.mem_cons.mp (counted.mem_iff.mp mem) with rfl | mem
    · rw [List.count_singleton_self, UInt32.ofNat_add, ← known e List.mem_cons_self]
      rfl
    · have other : x.serial ≠ e.serial := by
        intro same
        apply apart
        exact List.mem_map.mpr ⟨x, mem, same⟩
      rw [List.count_singleton, if_neg (by simpa using other.symm)]
      exact known x (List.mem_cons_of_mem e mem)
  · rcases List.mem_append.mp mem with mem | mem
    · exact shelved.below serial mem
    · obtain rfl := List.mem_singleton.mp mem
      exact List.mem_range.mp (serials.mem_iff.mp (List.mem_map_of_mem List.mem_cons_self))

theorem Shelved.added (shelved : Shelved uses made c) {bytes : Bytes}
    (added : after.copies.Perm (c.fresh page bytes :: c.copies)) (next : after.nextSerial = c.nextSerial + 1) :
    Shelved uses (made + 1) after := by
  have fresh : (c.fresh page bytes).serial = made := shelved.number
  refine ⟨by rw [next, shelved.number], ?_, fun x mem => ?_, fun serial mem => ?_⟩
  · have serials := added.map (·.serial)
    rw [List.map_cons, fresh] at serials
    rw [List.range_succ]
    exact (serials.trans (shelved.serials.cons made)).trans (List.perm_append_singleton _ _).symm
  · rcases List.mem_cons.mp (added.mem_iff.mp mem) with rfl | mem
    · have unread : uses.count made = 0 :=
        List.count_eq_zero.mpr fun mem => Nat.lt_irrefl made (shelved.below made mem)
      rw [fresh, unread]
      rfl
    · exact shelved.readers x mem
  · exact Nat.lt_succ_of_lt (shelved.below serial mem)

theorem Shelved.step (shelved : Shelved uses made c) {source : Option Nat} {creates : Bool}
    (shelves : Shelves c after source creates) :
    Shelved (uses ++ source.toList) (made + if creates then 1 else 0) after := by
  cases shelves with
  | served before counted next => exact shelved.served before counted next
  | made added next =>
    rw [Option.toList_none, List.append_nil]
    exact shelved.added added next
  | kept same next =>
    rw [Option.toList_none, List.append_nil]
    exact ⟨next.trans shelved.number, (same.map _).trans shelved.serials,
      fun e mem => shelved.readers e (same.mem_iff.mp mem), shelved.below⟩

/-- Two copies of one number are one. -/
theorem Shelved.unique (shelved : Shelved uses made c) {x y : CacheEntry} (hx : x ∈ c.copies) (hy : y ∈ c.copies)
    (same : x.serial = y.serial) : x = y :=
  List.inj_on_of_nodup_map (shelved.serials.nodup_iff.mpr List.nodup_range) hx hy same

theorem isResident_iff {serial : Nat} : c.isResident serial = true ↔ serial ∈ c.entries.map (·.serial) := by
  unfold isResident held?
  cases found : c.entries.find? (·.serial == serial) with
  | some e =>
    have same : e.serial = serial := by simpa using List.find?_some found
    simpa using ⟨e, List.mem_of_find?_eq_some found, same⟩
  | none =>
    have absent : ∀ e ∈ c.entries, e.serial ≠ serial := by simpa using found
    cases c.retired.find? (·.serial == serial) <;> simpa using absent

theorem isSome_held? {serial : Nat} : (c.held? serial).isSome ↔ serial ∈ c.copies.map (·.serial) := by
  unfold held?
  cases found : c.entries.find? (·.serial == serial) with
  | some e =>
    have same : e.serial = serial := by simpa using List.find?_some found
    simpa [copies] using .inl ⟨e, List.mem_of_find?_eq_some found, same⟩
  | none =>
    have absent : serial ∉ c.entries.map (·.serial) := by simpa using found
    rw [Option.isSome_map, List.find?_isSome, copies, List.map_append, List.mem_append, or_iff_right absent]
    simp

/-- A copy is found by its number, wherever it is. -/
theorem Shelved.held? (shelved : Shelved uses made c) (mem : e ∈ c.copies) :
    c.held? e.serial = some (e, c.isResident e.serial) := by
  have found : ∃ resident, c.held? e.serial = some (e, resident) := by
    unfold Cache.held?
    cases found : c.entries.find? (·.serial == e.serial) with
    | some x =>
      have there : x ∈ c.copies := List.mem_append_left _ (List.mem_of_find?_eq_some found)
      have same : x = e := shelved.unique there mem (by simpa using List.find?_some found)
      exact ⟨true, by rw [same]⟩
    | none =>
      have left : e ∈ c.retired := by
        rcases List.mem_append.mp mem with here | left
        · exact absurd (List.find?_eq_none.mp found e here) (by simp)
        · exact left
      obtain ⟨y, found⟩ : ∃ y, c.retired.find? (·.serial == e.serial) = some y :=
        Option.isSome_iff_exists.mp (List.find?_isSome.mpr ⟨e, left, by simp⟩)
      have there : y ∈ c.copies := List.mem_append_right _ (List.mem_of_find?_eq_some found)
      have same : y = e := shelved.unique there mem (by simpa using List.find?_some found)
      exact ⟨false, by rw [found, same]; rfl⟩
  obtain ⟨resident, found⟩ := found
  rw [isResident, found]
  rfl

/-- A copy is retired exactly if it is not in the cache. -/
theorem Shelved.retired_iff (shelved : Shelved uses made c) {serial : Nat} (below : serial < made) :
    c.isResident serial = false ↔ serial ∈ c.retired.map (·.serial) := by
  have once : (c.entries.map (·.serial) ++ c.retired.map (·.serial)).Perm (List.range made) := by
    rw [← List.map_append]
    exact shelved.serials
  rw [← Bool.not_eq_true, isResident_iff]
  constructor
  · intro absent
    exact (List.mem_append.mp (once.mem_iff.mpr (List.mem_range.mpr below))).resolve_left absent
  · intro retired resident
    exact (List.nodup_append.mp (once.nodup_iff.mpr List.nodup_range)).2.2 _ resident _ retired rfl

theorem Shelved.below_of_mem (shelved : Shelved uses made c) (mem : e ∈ c.copies) : e.serial < made :=
  List.mem_range.mp (shelved.serials.mem_iff.mp (List.mem_map_of_mem mem))

/-- The copy in the cache is the one that looking for its page finds. -/
theorem Shelved.resident_iff (shelved : Shelved uses made c) (distinct : c.ids.Nodup) (mem : e ∈ c.copies) :
    c.isResident e.serial = true ↔ c.entry? e.page = some e := by
  rw [isResident_iff]
  constructor
  · intro resident
    obtain ⟨x, here, same⟩ := List.mem_map.mp resident
    obtain rfl := shelved.unique (List.mem_append_left _ here) mem same
    obtain ⟨y, found⟩ := mem_ids.mp (List.mem_map_of_mem here)
    obtain ⟨there, page⟩ := entry?_eq_some found
    rw [found, List.inj_on_of_nodup_map distinct there here page]
  · intro found
    exact List.mem_map_of_mem (entry?_eq_some found).1

/-- A copy keeps its number, its page and its bytes. -/
theorem Shelves.lasting {source : Option Nat} {created : Bool} (shelves : Shelves c after source created)
    (mem : e ∈ c.copies) : ∃ readers, { e with readers } ∈ after.copies := by
  cases shelves with
  | @served x rest before counted next =>
    rcases List.mem_cons.mp (before.mem_iff.mp mem) with rfl | mem
    · exact ⟨_, counted.mem_iff.mpr List.mem_cons_self⟩
    · exact ⟨e.readers, counted.mem_iff.mpr (List.mem_cons_of_mem _ mem)⟩
  | made added next => exact ⟨e.readers, added.mem_iff.mpr (List.mem_cons_of_mem _ mem)⟩
  | kept same next => exact ⟨e.readers, same.mem_iff.mpr mem⟩

theorem Serves.retired (serves : Serves c r a after) : c.retired ⊆ after.retired := by
  cases serves with
  | replaced | refreshed | removed => exact List.subset_cons_self _ _
  | evicted => exact List.subset_append_right _ _
  | hit | missed | added | disabled | refused | unrefreshed | unremoved | shown | told => exact List.Subset.refl _

theorem Shelved.sum_readers (shelved : Shelved uses made c) (few : ∀ serial, uses.count serial < 2 ^ 32) :
    ∑ serial ∈ Finset.range made, c.readersOf serial = uses.length := by
  have each : ∀ serial ∈ Finset.range made, c.readersOf serial = uses.count serial := by
    intro serial mem
    obtain ⟨e, there, rfl⟩ := List.mem_map.mp (shelved.serials.mem_iff.mpr
      (List.mem_range.mpr (Finset.mem_range.mp mem)))
    rw [readersOf, shelved.held? there, Option.elim_some, shelved.readers e there, UInt32.toNat_ofNat_of_lt']
    exact few e.serial
  rw [Finset.sum_congr rfl each]
  simpa only [Multiset.coe_count, Multiset.coe_card] using Multiset.sum_count_eq_card (s := Finset.range made)
    (m := (uses : Multiset Nat)) fun serial mem => Finset.mem_range.mpr (shelved.below serial mem)

namespace Metered

variable {capacity : Nat} {policy : CachePolicy} {first : Counters} {m : Metered}
  {history : List (Request × Answer)}

/-- The copies that the look-ups among some requests are served from. -/
def sources : List Request → Metered → List Nat
  | [], _ => []
  | r :: rest, m => (m.cache.source? r).toList ++ sources rest (m.serve r).2

theorem serve_lookup (m : Metered) (page : PageId) :
    (m.serve (.lookup page)).1 = .found ((m.cache.entry? page).map (·.bytes)) := by
  rw [serve, lookupCounted, Cache.lookup]
  cases m.cache.entry? page <;> rfl

theorem isHit_serve (m : Metered) (r : Request) : isHit (r, (m.serve r).1) = (m.cache.source? r).isSome := by
  cases r with
  | lookup page =>
    rw [serve_lookup, source?, isHit, Option.isSome_map, Option.isSome_map]
  | insert | refresh | remove | entry | contains => rfl

theorem length_sources (requests : List Request) (m : Metered) :
    (sources requests m).length = (m.serveAll requests).1.countP isHit := by
  induction requests generalizing m with
  | nil => rfl
  | cons r rest ih =>
    rw [sources, List.length_append, ih, serveAll, List.countP_cons, isHit_serve, Option.length_toList]
    omega

theorem serveAll_append (before after : List Request) (m : Metered) :
    (serveAll (before ++ after) m).2 = (serveAll after (serveAll before m).2).2 := by
  induction before generalizing m with
  | nil => rfl
  | cons r rest ih => exact ih (m.serve r).2

/-- What a copy tells whoever holds it, when so many look-ups were served from it. -/
structure Tells (m : Metered) (e : CacheEntry) (served : Nat) : Prop where
  copy : m.cache.held? e.serial = some ({ e with readers := UInt32.ofNat served }, m.cache.isResident e.serial)
  resident : m.cache.isResident e.serial = true ↔
    ∃ same, (m.serve (.entry e.page)).1 = .entry (some same) ∧ same.serial = e.serial
  retired : m.cache.isResident e.serial = false ↔ e.serial ∈ m.cache.retired.map (·.serial)
  gone : m.cache.isResident e.serial = false → ∀ later, (m.serveAll later).2.cache.isResident e.serial = false
  answers : m.cache.isResident e.serial = true → (m.serve (.lookup e.page)).1 = .found (some e.bytes)

theorem Obeys.shelved_serveAll (obeys : Obeys capacity policy first history m)
    (shelved : Shelved uses made m.cache) (requests : List Request) :
    Shelved (uses ++ sources requests m) (made + (m.serveAll requests).1.countP creates)
      (m.serveAll requests).2.cache := by
  induction requests generalizing history m uses made with
  | nil => simpa [sources, Metered.serveAll] using shelved
  | cons r rest ih =>
    have step := shelved.step ((m.serves r).shelves obeys.recent.distinct)
    have run := ih (obeys.next r) step
    rw [sources, Metered.serveAll, List.countP_cons, ← List.append_assoc, Nat.add_comm (List.countP ..),
      ← Nat.add_assoc]
    exact run

theorem Obeys.lasting (obeys : Obeys capacity policy first history m) (mem : e ∈ m.cache.copies)
    (requests : List Request) : ∃ readers, { e with readers } ∈ (m.serveAll requests).2.cache.copies := by
  induction requests generalizing history m e with
  | nil => exact ⟨e.readers, mem⟩
  | cons r rest ih =>
    obtain ⟨readers, mem⟩ := ((m.serves r).shelves obeys.recent.distinct).lasting mem
    obtain ⟨later, mem⟩ := ih (obeys.next r) mem
    exact ⟨later, mem⟩

theorem retired_serveAll (requests : List Request) (m : Metered) :
    m.cache.retired ⊆ (m.serveAll requests).2.cache.retired := by
  induction requests generalizing m with
  | nil => exact List.Subset.refl _
  | cons r rest ih => exact List.Subset.trans (m.serves r).retired (ih (m.serve r).2)

theorem shelved_create (capacity : Nat) (policy : CachePolicy) : Shelved [] 0 (create capacity policy) :=
  ⟨rfl, .refl _, nofun, nofun⟩

theorem Obeys.tells (obeys : Obeys capacity policy first history m) (shelved : Shelved uses made m.cache)
    (mem : e ∈ m.cache.copies) : Tells m e (uses.count e.serial) := by
  have distinct := obeys.recent.distinct
  have below := shelved.below_of_mem mem
  refine ⟨?_, ?_, shelved.retired_iff below, fun gone later => ?_, fun here => ?_⟩
  · rw [shelved.held? mem, ← shelved.readers e mem]
  · rw [shelved.resident_iff distinct mem]
    constructor
    · intro found
      exact ⟨e, congrArg Answer.entry found, rfl⟩
    · rintro ⟨same, found, number⟩
      have found : m.cache.entry? e.page = some same := Answer.entry.inj found
      have there : same ∈ m.cache.copies := List.mem_append_left _ (entry?_eq_some found).1
      rw [found, shelved.unique there mem number]
  · have after := obeys.shelved_serveAll shelved later
    rw [after.retired_iff (Nat.lt_add_right _ below)]
    obtain ⟨x, retired, same⟩ := List.mem_map.mp ((shelved.retired_iff below).mp gone)
    exact List.mem_map.mpr ⟨x, retired_serveAll later m retired, same⟩
  · rw [serve_lookup, (shelved.resident_iff distinct mem).mp here]
    rfl

/-- Whoever holds a copy that the cache once showed is told the truth by it after any further requests, and all copies
together have counted all hits. -/
theorem handles_tell (capacity : Nat) (policy : CachePolicy) (first : Counters) (before after : List Request)
    {page : PageId} {e : CacheEntry}
    (shown : ((serveAll before ⟨create capacity policy, first⟩).2.serve (.entry page)).1 = .entry (some e)) :
    let start : Metered := ⟨create capacity policy, first⟩
    let history := (serveAll (before ++ after) start).1
    let now := (serveAll (before ++ after) start).2
    let served := sources (before ++ after) start
    e.page = page ∧ Tells now e (served.count e.serial) ∧
    (∀ serial, (now.cache.held? serial).isSome ↔ serial < history.countP creates) ∧
    ((∀ serial, served.count serial < 2 ^ 32) →
      ∑ serial ∈ Finset.range (history.countP creates), now.cache.readersOf serial = history.countP isHit) ∧
    now.counters.get .cacheHits = first.get .cacheHits + UInt64.ofNat (history.countP isHit) := by
  intro start history now served
  have began := obeys_create capacity policy first
  have shelved := began.shelved_serveAll (shelved_create capacity policy) (before ++ after)
  have obeys := began.serveAll (before ++ after)
  rw [List.nil_append, Nat.zero_add] at shelved
  rw [List.nil_append] at obeys
  have found : (serveAll before start).2.cache.entry? page = some e := Answer.entry.inj shown
  obtain ⟨there, same⟩ := entry?_eq_some found
  obtain ⟨readers, lasting⟩ := (began.serveAll before).lasting (List.mem_append_left _ there) after
  rw [← serveAll_append] at lasting
  have tells : Tells now { e with readers } _ := obeys.tells shelved lasting
  refine ⟨same, ⟨tells.copy, tells.resident, tells.retired, tells.gone, tells.answers⟩, fun serial => ?_,
    fun few => ?_, obeys.hits⟩
  · rw [isSome_held?, shelved.serials.mem_iff, List.mem_range]
  · rw [shelved.sum_readers few, length_sources]

/-- A copy that has served one look-up is replaced, and so is the copy that came after it. -/
theorem handles_tell_replaced : ∃ (start m now : Metered) (before after : List Request),
    start = ⟨create 1 .evictOldest, {}⟩ ∧ m = (serveAll before start).2 ∧
    now = (serveAll (before ++ after) start).2 ∧
    (m.serve (.entry 0)).1 = .entry (some ⟨0, 0, [1], 1⟩) ∧
    Tells now ⟨0, 0, [1], 1⟩ 1 ∧ now.cache.isResident 0 = false ∧
    (∀ serial, (now.cache.held? serial).isSome ↔ serial < 4) ∧
    ∑ serial ∈ Finset.range 4, now.cache.readersOf serial = 3 ∧ now.counters.get .cacheHits = 3 := by
  let start : Metered := ⟨create 1 .evictOldest, {}⟩
  let before : List Request := [.insert 0 [1], .lookup 0]
  let after : List Request := [.insert 0 [2], .lookup 0, .lookup 0, .refresh 0 [3], .insert 1 [4]]
  have there : (serveAll before start).2.cache.entry? 0 = some ⟨0, 0, [1], 1⟩ := by decide
  have away : (serveAll (before ++ after) start).2.cache.isResident 0 = false := by decide
  have few : ∀ serial, (sources (before ++ after) start).count serial < 2 ^ 32 := fun serial =>
    Nat.lt_of_le_of_lt List.count_le_length (by decide)
  have served : (sources (before ++ after) start).count 0 = 1 := by decide
  have made : (serveAll (before ++ after) start).1.countP creates = 4 := by decide
  have found : (serveAll (before ++ after) start).1.countP isHit = 3 := by decide
  obtain ⟨-, tells, all, total, hits⟩ :=
    handles_tell 1 .evictOldest {} before after (congrArg Answer.entry there)
  have total := total few
  rw [served] at tells
  rw [made] at all total
  rw [found] at total hits
  exact ⟨start, _, _, before, after, rfl, rfl, rfl, congrArg Answer.entry there, tells, away, all, total, hits⟩

end Metered

end Cache

end PageJournal
