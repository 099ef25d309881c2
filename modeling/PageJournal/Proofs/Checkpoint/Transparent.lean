import PageJournal.Checkpoint.Cycle
import PageJournal.Proofs.Page.Coherence

/-! The cache is not to be seen. Whatever is written, read, flushed and checkpointed, a page reads as
what was last written to it, and every answer is the same as without a cache. -/
namespace PageJournal

namespace Table

variable {t : Table} {trouble : PageId → Trouble}

theorem flushed_cons (page : PageId) (pages : List PageId) :
    (t.flushed [page] trouble).flushed pages trouble = t.flushed (page :: pages) trouble := by
  have same : ∀ q, (t.flushed [page] trouble).flush q (trouble q) = t.flush q (trouble q) := fun _ => rfl
  unfold flushed
  simp only [List.filter_filter]
  congr 2
  funext q
  change (!(pages.contains q && ((t.flushed [page] trouble).flush q (trouble q)).isOk) && _) = _
  rw [same]
  cases (t.flush q (trouble q)).isOk <;> simp [Bool.and_comm]

/-- Only what is dirty can become clean. -/
theorem flushed_of_subset {pages : List PageId} (all : t.dirty ⊆ pages) :
    t.flushed pages trouble = t.flushed t.dirty trouble := by
  unfold flushed
  congr 1
  refine List.filter_congr fun q mem => ?_
  have listed : pages.contains q = true := List.contains_iff_mem.mpr (all mem)
  have dirty : t.dirty.contains q = true := List.contains_iff_mem.mpr mem
  rw [listed, dirty]

end Table

namespace Checkpoint.Checkpointer

open PageStore (Shows)

variable {h : Handle} {place : Path} {t : Table} {s : PageStore} {trouble : PageId → Trouble}

theorem flushPages_append (flush : Flush) (a b : List PageId) (s : PageStore) :
    flushPages flush (a ++ b) s =
      ((flushPages flush a s).1 ++ (flushPages flush b (flushPages flush a s).2).1,
        (flushPages flush b (flushPages flush a s).2).2) := by
  induction a generalizing s with
  | nil => rfl
  | cons page rest ih => simp only [List.cons_append, flushPages, ih]

theorem flushShares_eq (flush : Flush) (shares : List (List PageId)) (s : PageStore) :
    flushShares flush shares s = flushPages flush shares.flatten s := by
  induction shares generalizing s with
  | nil => rfl
  | cons share rest ih => simp only [flushShares, ih, List.flatten_cons, flushPages_append]

theorem flatten_shares (threads : Nat) (pages : List PageId) :
    (shares threads pages).flatten = pages := by
  unfold shares
  split
  · exact List.flatten_singleton
  · next several =>
    simp only [Bool.or_eq_true, decide_eq_true_eq, not_or, Nat.not_le] at several
    exact flatten_chunks (Nat.div_pos (by omega) (by omega)) pages

theorem shows_flushPages (shows : Shows h place t s) (pages : List PageId) :
    Shows h place (t.flushed pages trouble)
      (flushPages (fun page s => s.flush page (trouble page)) pages s).2 := by
  induction pages generalizing t s with
  | nil =>
    have none : t.flushed [] trouble = t := by simp [Table.flushed]
    rw [none]
    exact shows
  | cons page rest ih =>
    rw [← Table.flushed_cons]
    exact ih (shows.flush page trouble).2

theorem subset_foldl_insertPage (ids pages : List PageId) :
    pages ⊆ ids.foldl (fun pages page => insertPage page pages) pages := by
  induction ids generalizing pages with
  | nil => exact List.Subset.refl pages
  | cons id rest ih => exact fun _ mem => ih _ (subset_insertPage id pages mem)

theorem dirty_subset_collect (c : Checkpointer) : c.store.dirty ⊆ c.collect.1 :=
  subset_foldl_insertPage _ _

/-- The checkpointer of a table, with its log in the open file. -/
structure Tends (h : Handle) (place : Path) (t : Table) (c : Checkpointer) : Prop where
  shows : Shows h place t c.store
  log : c.log.file = h

variable {c : Checkpointer}

theorem Tends.count (tends : Tends h place t c) (counter : Counter) :
    Tends h place t (c.count counter) :=
  ⟨tends.shows.count counter, tends.log⟩

theorem Tends.countAll (tends : Tends h place t c) (pages : List PageId) :
    Tends h place t (pages.foldl (fun c _ => c.count .errors) c) := by
  induction pages generalizing c with
  | nil => exact tends
  | cons page rest ih => exact ih (tends.count .errors)

theorem Tends.flushAll (tends : Tends h place t c) :
    Tends h place (t.flushed t.dirty trouble)
      (c.flushAll fun page s => s.flush page (trouble page)).2.2 := by
  have dirty : c.store.dirty = t.dirty := congrArg Table.dirty tends.shows.table
  rw [← Table.flushed_of_subset (dirty ▸ dirty_subset_collect c)]
  refine ⟨?_, tends.log⟩
  unfold Checkpointer.flushAll
  dsimp only
  rw [flushShares_eq, flatten_shares]
  exact shows_flushPages tends.shows _

theorem Tends.logRecord (tends : Tends h place t c) (now : UInt64) (thread : UInt32)
    (dirtyPages : Nat) : Tends h place t (c.logRecord now thread dirtyPages).2 := by
  generalize appended : c.log.append (Record.line ⟨now, thread, UInt64.ofNat dirtyPages,
    c.sequence.current⟩) c.store.disk = result
  have logged : (c.logRecord now thread dirtyPages).2 =
      { c with log := result.2.1, store := { c.store with disk := result.2.2 }, phase := .idle } := by
    subst result
    unfold Checkpointer.logRecord enter
    dsimp only
    split <;> rfl
  rw [logged]
  unfold LogFile.append at appended
  dsimp only at appended
  split at appended
  · cases appended
    exact ⟨tends.shows, tends.log⟩
  · next written =>
    cases appended
    rw [tends.log] at written
    obtain ⟨orderly, same⟩ := tends.shows.orderly.append written
    exact ⟨tends.shows.onDisk orderly same, tends.log⟩

/-- A cycle makes dirty pages clean where it can, and changes no page. -/
theorem Tends.cycle (tends : Tends h place t c) (now : UInt64) (thread : UInt32)
    (trouble : PageId → Trouble) :
    Tends h place (t.flushed t.dirty trouble) (c.cycle now thread trouble).2 := by
  unfold Checkpointer.cycle cycleWith
  have flushed : Tends h place (t.flushed t.dirty trouble)
      (c.flushAll fun page s => s.flush page (trouble page)).2.2 := tends.flushAll
  generalize c.flushAll (fun page s => s.flush page (trouble page)) = all at flushed
  obtain ⟨dirtyPages, outcomes, after⟩ := all
  dsimp only at flushed ⊢
  split
  · have logged := flushed.logRecord now thread dirtyPages
    generalize after.logRecord now thread dirtyPages = result at logged
    obtain ⟨_ | record, last⟩ := result
    · exact logged
    · have counted := logged.count .checkpoints
      exact ⟨counted.shows, counted.log⟩
  · have counted := flushed.countAll (failures outcomes)
    exact ⟨counted.shows, counted.log⟩

end Checkpoint.Checkpointer

/-- What is asked of a page store and of its checkpointer, and what the environment refuses meanwhile. -/
inductive Call where
  | read (page : PageId)
  | fetch (page : PageId)
  | inspect (page : PageId)
  | write (page : PageId) (payload : Bytes) (trouble : Trouble)
  | flush (page : PageId) (trouble : Trouble)
  | cycle (now : UInt64) (thread : UInt32) (trouble : PageId → Trouble)

/-- What comes back. The report of a cycle is left out. -/
inductive Answer where
  | bytes (outcome : Except Fault Bytes)
  | page (outcome : Except Fault Page)
  | written (outcome : Except Fault Unit)
  | cycled

/-- The payload that went to a page. -/
def Answer.written? (page : PageId) : Call × Answer → Option Bytes
  | (.write q payload _, .written (.ok _)) => if q = page then some payload else none
  | _ => none

/-- The payload of the last write to a page that went through. -/
def lastWritten (page : PageId) (history : List (Call × Answer)) : Option Bytes :=
  history.reverse.findSome? (Answer.written? page)

namespace Table

def act (t : Table) : Call → Answer × Table
  | .read page | .fetch page => (.bytes (t.read page), t)
  | .inspect page => (.page (t.page page), t)
  | .write page payload trouble =>
    (.written (t.write page payload trouble).1, (t.write page payload trouble).2)
  | .flush page trouble => (.page (t.flush page trouble), t.flushed [page] fun _ => trouble)
  | .cycle _ _ trouble => (.cycled, t.flushed t.dirty trouble)

def run : List Call → Table → List Answer × Table
  | [], t => ([], t)
  | call :: rest, t => ((t.act call).1 :: (run rest (t.act call).2).1, (run rest (t.act call).2).2)

/-- What a page holds after a payload may have gone to it. -/
def holding (t : Table) (page : PageId) : Option Bytes → Except Fault Bytes
  | some payload => .ok (padded t.pageSize payload)
  | none => t.contents page

/-- A call changes a page only by writing to it. -/
theorem act_contents (t : Table) (call : Call) :
    (t.act call).2.pageSize = t.pageSize ∧ (t.act call).2.pageCount = t.pageCount ∧
      ∀ page, (t.act call).2.contents page =
        t.holding page (Answer.written? page (call, (t.act call).1)) := by
  cases call with
  | read | fetch | inspect | flush | cycle => exact ⟨rfl, rfl, fun _ => rfl⟩
  | write q payload trouble =>
    unfold act write writeLocked
    dsimp only
    split
    · exact ⟨rfl, rfl, fun _ => rfl⟩
    · split
      · exact ⟨rfl, rfl, fun _ => rfl⟩
      · split
        · exact ⟨rfl, rfl, fun _ => rfl⟩
        · refine ⟨rfl, rfl, fun page => ?_⟩
          dsimp only [Answer.written?]
          split
          · next same =>
            rw [same]
            exact Function.update_self page _ t.contents
          · next other => exact Function.update_of_ne (Ne.symm other) _ t.contents

theorem run_contents (calls : List Call) (t : Table) :
    (t.run calls).2.pageSize = t.pageSize ∧ (t.run calls).2.pageCount = t.pageCount ∧
      ∀ page, (t.run calls).2.contents page =
        t.holding page (lastWritten page (calls.zip (t.run calls).1)) := by
  induction calls generalizing t with
  | nil => exact ⟨rfl, rfl, fun _ => rfl⟩
  | cons call rest ih =>
    obtain ⟨size, count, first⟩ := act_contents t call
    obtain ⟨sizes, counts, later⟩ := ih (t.act call).2
    refine ⟨sizes.trans size, counts.trans count, fun page => (later page).trans ?_⟩
    have last : lastWritten page ((call :: rest).zip (t.run (call :: rest)).1) =
        (lastWritten page (rest.zip ((t.act call).2.run rest).1)).or
          (Answer.written? page (call, (t.act call).1)) := by
      simp [lastWritten, run, List.findSome?_append]
    rw [last]
    rcases lastWritten page (rest.zip ((t.act call).2.run rest).1) with _ | payload
    · exact first page
    · exact congrArg (fun size => Except.ok (padded size payload)) size

end Table

namespace Checkpoint.Checkpointer

def act (c : Checkpointer) : Call → Answer × Checkpointer
  | .read page => let (outcome, store) := c.store.read page; (.bytes outcome, { c with store })
  | .fetch page => let (outcome, store) := c.store.fetch page; (.bytes outcome, { c with store })
  | .inspect page => let (outcome, store) := c.store.page page; (.page outcome, { c with store })
  | .write page payload trouble =>
    let (outcome, store) := c.store.write page payload trouble; (.written outcome, { c with store })
  | .flush page trouble =>
    let (outcome, store) := c.store.flush page trouble; (.page outcome, { c with store })
  | .cycle now thread trouble => (.cycled, (c.cycle now thread trouble).2)

def run : List Call → Checkpointer → List Answer × Checkpointer
  | [], c => ([], c)
  | call :: rest, c => ((c.act call).1 :: (run rest (c.act call).2).1, (run rest (c.act call).2).2)

def withCache (c : Checkpointer) (cache : Cache) : Checkpointer :=
  { c with store := { c.store with cache } }

variable {h : Handle} {place : Path} {t : Table} {c : Checkpointer}

theorem Tends.act (tends : Tends h place t c) (call : Call) :
    (c.act call).1 = (t.act call).1 ∧ Tends h place (t.act call).2 (c.act call).2 := by
  cases call with
  | read page =>
    obtain ⟨answer, after⟩ := tends.shows.read page
    exact ⟨congrArg Answer.bytes answer, after, tends.log⟩
  | fetch page =>
    obtain ⟨answer, after⟩ := tends.shows.fetch page
    exact ⟨congrArg Answer.bytes answer, after, tends.log⟩
  | inspect page =>
    obtain ⟨answer, after⟩ := tends.shows.page page
    exact ⟨congrArg Answer.page answer, after, tends.log⟩
  | write page payload trouble =>
    obtain ⟨answer, after⟩ := tends.shows.write page payload trouble
    exact ⟨congrArg Answer.written answer, after, tends.log⟩
  | flush page trouble =>
    obtain ⟨answer, after⟩ := tends.shows.flush page fun _ => trouble
    exact ⟨congrArg Answer.page answer, after, tends.log⟩
  | cycle now thread trouble => exact ⟨rfl, tends.cycle now thread trouble⟩

/-- Any calls are answered as on the table. -/
theorem Tends.run (tends : Tends h place t c) (calls : List Call) :
    (c.run calls).1 = (t.run calls).1 ∧ Tends h place (t.run calls).2 (c.run calls).2 := by
  induction calls generalizing t c with
  | nil => exact ⟨rfl, tends⟩
  | cons call rest ih =>
    obtain ⟨answer, after⟩ := tends.act call
    obtain ⟨answers, last⟩ := ih after
    exact ⟨by rw [Checkpointer.run, Table.run, answer, answers], last⟩

theorem tends_withCache (orderly : c.store.disk.Orderly c.log.file c.store.dir place) (capacity : Nat)
    (policy : CachePolicy) :
    Tends c.log.file place (c.store.table place) (c.withCache (.create capacity policy)) :=
  ⟨⟨orderly, Cache.agrees_create capacity policy _, rfl⟩, rfl⟩

/-- With a cache of any capacity and policy, a page reads as the payload that was last written to it, or
else as its file did at the start; and every answer is the one that is given without a cache. -/
theorem cache_transparent (c : Checkpointer) (place : Path)
    (orderly : c.store.disk.Orderly c.log.file c.store.dir place) (capacity : Nat) (policy : CachePolicy)
    (calls : List Call) :
    let cached := run calls (c.withCache (.create capacity policy))
    (∀ page, let expected : Except Fault Bytes := do
        c.store.checkRange page
        match lastWritten page (calls.zip cached.1) with
        | some payload => .ok (padded c.store.pageSize payload)
        | none => c.store.readFile page
      (cached.2.store.read page).1 = expected ∧ (cached.2.store.fetch page).1 = expected ∧
        (cached.2.store.page page).1.map (·.bytes) = expected) ∧
    ∀ other, cached.1 = (run calls (c.withCache (.create 0 other))).1 := by
  have answered := fun capacity policy => (tends_withCache orderly capacity policy).run calls
  obtain ⟨answers, tends⟩ := answered capacity policy
  obtain ⟨size, count, contents⟩ := Table.run_contents calls (c.store.table place)
  refine ⟨fun page => ?_, fun other => answers.trans (answered 0 other).1.symm⟩
  have expected : ((c.store.table place).run calls).2.read page = (do
      c.store.checkRange page
      match lastWritten page (calls.zip ((c.store.table place).run calls).1) with
      | some payload => .ok (padded c.store.pageSize payload)
      | none => c.store.readFile page) := by
    unfold Table.read PageStore.checkRange
    rw [count, contents]
    by_cases out : c.store.pageCount ≤ page
    · rw [if_pos out]
      exact if_pos out
    · rw [if_neg out]
      refine (if_neg out).trans ?_
      rcases lastWritten page (calls.zip ((c.store.table place).run calls).1) with _ | payload <;> rfl
  rw [answers]
  dsimp only
  rw [← expected]
  refine ⟨(tends.shows.read page).1, (tends.shows.fetch page).1, ?_⟩
  rw [(tends.shows.page page).1, Table.page]
  cases ((c.store.table place).run calls).2.read page <;> rfl

/-- Two pages, and a directory where new bytes of the first one would gather. -/
def twoPages : Checkpointer where
  store :=
    { disk := ⟨[(["pages"], .directory), (["pages", "page_0.dbp"], .file 0 [4, 3, 2, 1]),
        (["pages", "page_0.dbp.tmp"], .directory), (["pages", "page_1.dbp"], .file 1 [0, 0, 0, 0]),
        (["checkpoint.log"], .file 2 [])], 3⟩
      dir := ["pages"]
      pageSize := 4
      pageCount := 2
      dirty := []
      cache := .create 1 .evictOldest
      counters := {} }
  sequence := .startingAt 1
  log := ⟨.file 2, []⟩
  flushThreads := 1
  events := ⟨.device .null, []⟩

theorem orderly_twoPages :
    twoPages.store.disk.Orderly twoPages.log.file twoPages.store.dir ["pages"] := by
  have leads : twoPages.store.disk.LeadsTo ["pages"] ["pages"] :=
    Volume.leadsTo_of_follow (by rfl) (by rfl)
  have slots : ∀ x e, twoPages.store.disk.slot? ["pages"] x = some e → e = .directory ∨
      x = .page 0 ∧ e = .file 0 [4, 3, 2, 1] ∨ x = .page 1 ∧ e = .file 1 [0, 0, 0, 0] := by
    intro x e there
    have named : ∀ p, x.name = PageName.render p → x = .page p :=
      fun p same => Slot.name_injective (y := .page p) same
    simp [twoPages, Volume.slot?, Volume.entry?, Path.child, List.lookup_cons] at there
    split at there
    · next first => exact .inr (.inl ⟨named 0 (beq_iff_eq.mp first), (Option.some.inj there).symm⟩)
    · split at there
      · exact .inl (Option.some.inj there).symm
      · split at there
        · next second => exact .inr (.inr ⟨named 1 (beq_iff_eq.mp second), (Option.some.inj there).symm⟩)
        · cases there
  refine ⟨leads, fun x e there => ?_, fun x p i a b _ gathers => ?_, ?_⟩
  · rcases slots x e there with directory | ⟨-, rfl⟩ | ⟨-, rfl⟩
    · exact .inl directory
    all_goals exact .inr ⟨_, _, rfl, by decide, by decide⟩
  · rcases slots _ _ gathers with same | ⟨same, -⟩ | ⟨same, -⟩
    all_goals cases same
  · rintro k same
    cases same
    decide

/-- The write of the first page is refused, that of the second is read back from the cache. -/
theorem cache_transparent_twoPages :
    let calls : List Call :=
      [.fetch 1, .write 1 [7] .none, .write 0 [9] .none, .cycle 5 0 fun _ => .none]
    let cached := run calls (twoPages.withCache (.create 1 .evictOldest))
    (cached.2.store.fetch 1).1 = .ok [7, 0, 0, 0] ∧ (cached.2.store.read 0).1 = .ok [1, 2, 3, 4] ∧
      cached.1 = (run calls (twoPages.withCache (.create 0 .refuseNew))).1 := by
  intro calls cached
  obtain ⟨reads, same⟩ := cache_transparent twoPages ["pages"] orderly_twoPages 1 .evictOldest calls
  refine ⟨(reads 1).2.1.trans ?_, (reads 0).1.trans ?_, same .refuseNew⟩
  · rfl
  · rfl

end Checkpoint.Checkpointer

end PageJournal
