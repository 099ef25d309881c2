import Mathlib.Data.List.Perm.Subperm
import PageJournal.Proofs.Checkpoint.Cycled
import PageJournal.Proofs.Engine.Range

/-! What a checkpoint cycle does when nothing else goes on. It flushes every page that is dirty or cached once,
it keeps all pages and the cache as they are, and only pages whose flush failed stay dirty. It goes through
unless a word cannot count its pages together with its threads. -/
namespace PageJournal

section Ascending

variable {page p : PageId} {pages ids : List PageId}

theorem ascending_foldl_insertPage (ascending : pages.Pairwise (· < ·)) :
    (ids.foldl (fun pages page => insertPage page pages) pages).Pairwise (· < ·) := by
  induction ids generalizing pages with
  | nil => exact ascending
  | cons id rest ih => exact ih (ascending_insertPage ascending)

theorem mem_foldl_insertPage : p ∈ ids.foldl (fun pages page => insertPage page pages) pages ↔
    p ∈ pages ∨ p ∈ ids := by
  induction ids generalizing pages with
  | nil => simp
  | cons id rest ih =>
    rw [List.foldl_cons, ih, mem_insertPage, List.mem_cons]
    tauto

theorem nodup_of_ascending (ascending : pages.Pairwise (· < ·)) : pages.Nodup :=
  ascending.imp UInt32.ne_of_lt

/-- There are not more pages than 32 bits can number. -/
theorem length_le_of_ascending (ascending : pages.Pairwise (· < ·)) : pages.length ≤ 2 ^ 32 := by
  have distinct : (pages.map UInt32.toNat).Nodup :=
    (nodup_of_ascending ascending).map fun _ _ => UInt32.toNat_inj.mp
  have numbers : pages.map UInt32.toNat ⊆ List.range (2 ^ 32) := by
    intro n mem
    obtain ⟨q, -, rfl⟩ := List.mem_map.mp mem
    exact List.mem_range.mpr q.toNat_lt
  have count := (distinct.subperm numbers).length_le
  rwa [List.length_map, List.length_range] at count

end Ascending

/-- A page file reads the same on two volumes that have the same in its place. -/
theorem Volume.Orderly.read_of_slot {h : Handle} {dir place : Path} {v w : Volume} {q : PageId}
    (later : w.Orderly h dir place) (orderly : v.Orderly h dir place)
    (same : w.slot? place (.page q) = v.slot? place (.page q)) :
    w.read (PageStore.fileIn dir q) = v.read (PageStore.fileIn dir q) := by
  have after := later.read (.page q)
  rw [same, ← orderly.read (.page q)] at after
  exact after

/-- A page's file that is replaced by the bytes that it has: all page files read as before. -/
theorem Volume.Replaced.read_eq {h : Handle} {dir place : Path} {p : PageId} {v w : Volume} {bytes : Bytes}
    {installed : Bool} (replaced : Volume.Replaced h dir place p v bytes installed w)
    (orderly : v.Orderly h dir place) (old : v.read (PageStore.fileIn dir p) = .ok bytes) (q : PageId) :
    w.read (PageStore.fileIn dir q) = v.read (PageStore.fileIn dir q) := by
  by_cases same : q = p
  · subst same
    have here := replaced.here
    cases installed with
    | true =>
      obtain ⟨i, there⟩ := here
      have new : w.read (PageStore.fileIn dir q) = .ok bytes :=
        (replaced.orderly.read_eq_ok (x := .page q)).mpr ⟨i, there⟩
      exact new.trans old.symm
    | false => exact replaced.orderly.read_of_slot orderly here
  · exact replaced.orderly.read_of_slot orderly (replaced.others q same)

/-- Appending to a file outside the page directory changes the bytes of no page file. -/
theorem Volume.Tended.read_append {dir place marks : Path} {v w : Volume} (tended : Volume.Tended dir place v)
    (outside : ∀ name, marks ≠ place.child name) {j : Nat} {bytes reversed : Bytes}
    (there : v.entry? marks = some (.file j reversed)) (appended : v.append (.file j) bytes = .ok w)
    (q : PageId) : w.read (PageStore.fileIn dir q) = v.read (PageStore.fileIn dir q) :=
  (tended.append outside there appended).orderly.read_of_slot tended.orderly
    (tended.sound.append_other there appended (outside _).symm)

namespace PageStore

open Volume

variable {s : PageStore} {place way home : Path}

/-- A flush does not look at the cache. -/
theorem flush_withCache (s : PageStore) (cache : Cache) (page : PageId) (t : Trouble) :
    ({ s with cache } : PageStore).flush page t =
      ((s.flush page t).1, { (s.flush page t).2 with cache }) := by
  have read : ({ s with cache } : PageStore).readFile page = s.readFile page := rfl
  have range : ({ s with cache } : PageStore).checkRange page = s.checkRange page := rfl
  have replace : ∀ bytes, ({ s with cache } : PageStore).replaceFile t page bytes true =
      ((s.replaceFile t page bytes true).1, { (s.replaceFile t page bytes true).2 with cache }) := by
    intro bytes
    rw [replaceFile_eq, replaceFile_eq]
    rfl
  unfold PageStore.flush
  rw [read, range]
  rcases s.checkRange page with _ | _
  · rfl
  · rcases s.readFile page with _ | bytes
    · rfl
    · dsimp only
      rw [replace]
      rcases s.replaceFile t page bytes true with ⟨_ | _, after⟩ <;> rfl

/-- A flush changes the bytes of no page file. -/
theorem flush_read {h : Handle} (orderly : s.disk.Orderly h s.dir place) (page : PageId) (t : Trouble)
    (q : PageId) : (s.flush page t).2.disk.read (s.file q) = s.disk.read (s.file q) := by
  have kept : ∀ bytes, s.readFile page = .ok bytes →
      (s.disk.replace t (s.file page) bytes true).2.read (s.file q) = s.disk.read (s.file q) :=
    fun bytes read => (orderly.replace t page bytes true).2.read_eq orderly (readFile_eq_ok.mp read).1 q
  rcases s.flush_cases page t with ⟨fault, refused⟩ | ⟨bytes, cause, read, failed⟩ | ⟨bytes, read, done⟩
  · rw [refused]
  · rw [failed]
    exact kept bytes read
  · rw [done]
    exact kept bytes read

/-- The store with an empty cache shows its files, whatever is in the cache now. -/
theorem shows_bare {h : Handle} (orderly : s.disk.Orderly h s.dir place) :
    Shows h place (s.table place) { s with cache := .create 0 .evictOldest } :=
  ⟨orderly, Cache.agrees_create 0 .evictOldest _, rfl⟩

/-- A flush acts on the store, whatever is cached, as it does on the table of its files. -/
theorem flush_table {h : Handle} (orderly : s.disk.Orderly h s.dir place) (page : PageId)
    (trouble : PageId → Trouble) :
    (s.flush page (trouble page)).1 = (s.table place).flush page (trouble page) ∧
      (s.flush page (trouble page)).2.disk.Orderly h s.dir place ∧
      (s.flush page (trouble page)).2.table place = (s.table place).flushed [page] trouble := by
  obtain ⟨outcome, shown⟩ := (shows_bare orderly).flush page trouble
  rw [flush_withCache] at outcome shown
  obtain ⟨disk, dirty, frame⟩ := s.flush_frame page (trouble page)
  have orderly := shown.orderly
  rw [frame] at orderly
  exact ⟨outcome, by rw [frame]; exact orderly, shown.table⟩

end PageStore

namespace Checkpoint.Checkpointer

open Volume PageStore

variable {c after : Checkpointer} {report : Report} {s : PageStore} {t : Table} {h : Handle}
  {way home place marks : Path} {trouble : PageId → Trouble} {j : Nat} {old : Bytes}

/-- Whether flushing the page, and nothing else, fails. -/
def fails (s : PageStore) (trouble : PageId → Trouble) (page : PageId) : Bool :=
  !(s.flush page (trouble page)).1.isOk

theorem flushPages_withCache (s : PageStore) (cache : Cache) (pages : List PageId) :
    flushPages (fun page s => s.flush page (trouble page)) pages { s with cache } =
      ((flushPages (fun page s => s.flush page (trouble page)) pages s).1,
        { (flushPages (fun page s => s.flush page (trouble page)) pages s).2 with cache }) := by
  induction pages generalizing s with
  | nil => rfl
  | cons page rest ih => simp only [flushPages, flush_withCache, ih]

theorem flushPages_cache (s : PageStore) (pages : List PageId) :
    (flushPages (fun page s => s.flush page (trouble page)) pages s).2.cache = s.cache :=
  congrArg (fun result => result.2.cache) (flushPages_withCache s s.cache pages)

theorem flushPages_read (reached : s.Reached way home place) (pages : List PageId) (q : PageId) :
    (flushPages (fun page s => s.flush page (trouble page)) pages s).2.disk.read (s.file q) =
      s.disk.read (s.file q) := by
  induction pages generalizing s with
  | nil => rfl
  | cons page rest ih =>
    have works := reached.flush page (trouble page)
    have later := ih works.reached
    have same : (s.flush page (trouble page)).2.file q = s.file q :=
      congrArg (fun dir => fileIn dir q) works.dir
    rw [same] at later
    exact later.trans (flush_read reached.tended.orderly page (trouble page) q)

/-- A page's flush comes out the same whatever was flushed before. -/
theorem outcomes_flushPages (shows : Shows h place t s) (pages : List PageId) :
    (flushPages (fun page s => s.flush page (trouble page)) pages s).1 =
      pages.map fun page => (page, (t.flush page (trouble page)).map fun _ => ()) := by
  induction pages generalizing t s with
  | nil => rfl
  | cons page rest ih =>
    obtain ⟨outcome, after⟩ := shows.flush page trouble
    have same : ∀ q, (t.flushed [page] trouble).flush q (trouble q) = t.flush q (trouble q) := fun _ => rfl
    have later := ih after
    simp only [same] at later
    rw [flushPages, List.map_cons, ← outcome]
    exact congrArg (List.cons _) later

theorem failures_map (outcome : PageId → Except Fault Page) (pages : List PageId) :
    failures (pages.map fun page => (page, (outcome page).map fun _ => ())) =
      pages.filter fun page => !(outcome page).isOk := by
  rw [failures, List.filter_map, List.map_map]
  refine (List.map_id _).trans (List.filter_congr fun page _ => ?_)
  simp only [Function.comp_apply]
  cases outcome page <;> rfl

theorem outcomes_eq (tended : Tended c.store.dir place c.store.disk) :
    c.outcomes trouble = c.collect.1.map fun page =>
      (page, (c.store.flush page (trouble page)).1.map fun _ => ()) := by
  have listed : (flushPages (fun page s => s.flush page (trouble page)) c.collect.1 _).1 = _ :=
    outcomes_flushPages (shows_bare tended.orderly) c.collect.1
  rw [flushPages_withCache] at listed
  simp only [(flush_table tended.orderly _ trouble).1]
  exact listed

theorem failed_eq (tended : Tended c.store.dir place c.store.disk) :
    failures (c.outcomes trouble) = c.collect.1.filter (fails c.store trouble) := by
  rw [outcomes_eq tended]
  exact failures_map (fun page => (c.store.flush page (trouble page)).1) _

/-- A page is dirty after the flushes if it was and its own flush failed. -/
theorem dirty_flushedStore (tended : Tended c.store.dir place c.store.disk) :
    (c.flushedStore trouble).dirty = c.store.dirty.filter (fails c.store trouble) := by
  have shown : Shows _ place ((c.store.table place).flushed c.collect.1 trouble) _ :=
    shows_flushPages (shows_bare tended.orderly) c.collect.1
  rw [flushPages_withCache] at shown
  have dirty : (c.flushedStore trouble).dirty =
      ((c.store.table place).flushed c.collect.1 trouble).dirty := congrArg Table.dirty shown.table
  refine dirty.trans (List.filter_congr fun page mem => ?_)
  have listed : c.collect.1.contains page = true :=
    List.contains_iff_mem.mpr (dirty_subset_collect c mem)
  rw [listed, Bool.true_and, fails, (flush_table tended.orderly page trouble).1]

/-- The page files are in a directory of their own, and the checkpoint log is an open file beside it that
nothing is owed to. -/
structure Ready (place marks : Path) (j : Nat) (old : Bytes) (c : Checkpointer) : Prop where
  tended : Tended c.store.dir place c.store.disk
  ascending : c.store.dirty.Pairwise (· < ·)
  log : c.log = ⟨.file j, []⟩
  file : c.store.disk.entry? marks = some (.file j old.reverse)
  outside : ∀ name, marks ≠ place.child name
  word : c.flushThreads < 2 ^ 64

/-- What a cycle tells and what it leaves behind. -/
structure Effect (marks : Path) (j : Nat) (old : Bytes) (now : UInt64) (thread : UInt32)
    (trouble : PageId → Trouble) (c : Checkpointer) (report : Report) (after : Checkpointer) : Prop where
  /-- The pages that it flushes: each of them once, with the outcome that its flush has by itself. -/
  ascending : c.collect.1.Pairwise (· < ·)
  collected : ∀ page, page ∈ c.collect.1 ↔ page ∈ c.store.dirty ∨ page ∈ c.store.cache.ids
  outcomes : (c.flushAll fun page s => s.flush page (trouble page)).2.1 =
    c.collect.1.map fun page => (page, (c.store.flush page (trouble page)).1.map fun _ => ())
  total : report.flushed + report.failed.length = c.collect.1.length
  failed : report.failed = c.collect.1.filter (fails c.store trouble)
  bytes : ∀ page, after.store.disk.read (after.store.file page) = c.store.disk.read (c.store.file page)
  cache : after.store.cache = c.store.cache
  dirty : ∀ page, page ∈ after.store.dirty ↔ page ∈ c.store.dirty ∧ page ∈ report.failed
  complete : report.failed = [] → after.store.dirty = [] ∧
    report.record = some ⟨now, thread, .ofNat c.store.dirty.length, c.sequence.current⟩
  incomplete : report.failed ≠ [] → report.record = none
  log : after.log = c.log ∧
    after.store.disk.entry? marks = some (.file j (old ++ report.lines).reverse)
  checkpoints : after.store.counters.get .checkpoints =
    c.store.counters.get .checkpoints + if report.failed = [] then 1 else 0
  errors : after.store.counters.get .errors =
    c.store.counters.get .errors + UInt64.ofNat report.failed.length
  counters : ∀ k, k ≠ .checkpoints → k ≠ .errors →
    after.store.counters.get k = c.store.counters.get k
  sequence : after.sequence = c.sequence
  threads : after.flushThreads = c.flushThreads

/-- The flushes of a cycle work on the page files only, and the log behind them gets the lines of the
report. -/
theorem Ready.cycled (ready : Ready place marks j old c) {flushed : PageStore}
    (works : Works c.store.dir place place c.store flushed)
    (ascending : flushed.dirty.Pairwise (· < ·)) (cycled : Cycled j flushed c report after) :
    Ready place marks j (old ++ report.lines) after ∧
      ∀ page, after.store.disk.read (after.store.file page) = flushed.disk.read (c.store.file page) := by
  have there : flushed.disk.entry? marks = some (.file j old.reverse) :=
    (works.within.elsewhere marks ready.outside).trans ready.file
  have tended : Tended c.store.dir place flushed.disk := works.within.tended
  have place : after.store.dir = c.store.dir := by rw [cycled.store, works.dir]
  have file := entry?_append_self there cycled.disk
  rw [← List.reverse_append] at file
  refine ⟨⟨?_, ?_, cycled.log.trans ready.log, file, ready.outside, cycled.threads ▸ ready.word⟩,
    fun page => ?_⟩
  · rw [place]
    exact tended.append ready.outside there cycled.disk
  · rw [cycled.store]
    exact ascending
  · rw [PageStore.file, place]
    exact tended.read_append ready.outside there cycled.disk page

theorem cycle_effect (ready : Ready place marks j old c) (now : UInt64) (thread : UInt32)
    (trouble : PageId → Trouble) : ∃ report after,
      c.cycle now thread trouble = (.ok report, after) ∧
      Effect marks j old now thread trouble c report after ∧
      Ready place marks j (old ++ report.lines) after := by
  obtain ⟨after, done, cycled⟩ := cycled_cycle ready.log now thread trouble
  have reached : c.store.Reached c.store.dir place place := ⟨ready.tended.leads, ready.tended⟩
  have works : Works c.store.dir place place c.store (c.flushedStore trouble) :=
    reached.flushPages trouble c.collect.1
  have dirty : after.store.dirty = c.store.dirty.filter (fails c.store trouble) := by
    rw [cycled.store]
    exact dirty_flushedStore ready.tended
  have failed : (c.reportOf now thread trouble).failed = c.collect.1.filter (fails c.store trouble) :=
    failed_eq ready.tended
  have size : (c.outcomes trouble).length = c.collect.1.length := by
    rw [outcomes_eq ready.tended, List.length_map]
  have ascending : (c.flushedStore trouble).dirty.Pairwise (· < ·) := by
    rw [dirty_flushedStore ready.tended]
    exact ready.ascending.filter _
  obtain ⟨next, bytes⟩ := ready.cycled works ascending cycled
  have counts := fun k => (congrArg (·.get k) cycled.counters).trans (Counters.get_tickAll _ _ k)
  simp only [Report.count_ticks] at counts
  refine ⟨_, after, done, ?_, next⟩
  constructor
  case ascending => exact ascending_foldl_insertPage ready.ascending
  case collected => exact fun page => mem_foldl_insertPage
  case outcomes => rw [flushAll_eq, outcomes_eq ready.tended]
  case total =>
    have fewer := List.length_filter_le (fails c.store trouble) c.collect.1
    rw [← failed] at fewer
    change (c.outcomes trouble).length - (c.reportOf now thread trouble).failed.length + _ = _
    omega
  case failed => exact failed
  case bytes => exact fun page => (bytes page).trans (flushPages_read reached c.collect.1 page)
  case cache =>
    rw [cycled.store]
    exact flushPages_cache c.store c.collect.1
  case dirty =>
    intro page
    rw [dirty, failed, List.mem_filter, List.mem_filter]
    have listed : page ∈ c.store.dirty → page ∈ c.collect.1 := fun mem => dirty_subset_collect c mem
    tauto
  case complete =>
    intro none
    refine ⟨?_, if_pos none⟩
    rw [dirty, List.filter_eq_nil_iff]
    rw [failed, List.filter_eq_nil_iff] at none
    exact fun page mem => none page (dirty_subset_collect c mem)
  case incomplete => exact fun some => if_neg some
  case log => exact ⟨cycled.log, next.file⟩
  case checkpoints =>
    have ticked := counts .checkpoints
    rw [isComplete_reportOf] at ticked
    refine ticked.trans ?_
    simp only [decide_eq_true_eq]
    split <;> rfl
  case errors => exact counts .errors
  case counters =>
    intro k cycles errors
    refine (counts k).trans ?_
    cases k with
    | checkpoints => exact absurd rfl cycles
    | errors => exact absurd rfl errors
    | _ => exact UInt64.add_zero _
  case sequence => exact cycled.sequence
  case threads => exact cycled.threads

theorem Ready.length_collect (ready : Ready place marks j old c) : c.collect.1.length < 2 ^ 64 := by
  have ascending : c.collect.1.Pairwise (· < ·) := ascending_foldl_insertPage ready.ascending
  exact Nat.lt_of_le_of_lt (length_le_of_ascending ascending) (by decide)

theorem Ready.attempt (ready : Ready place marks j old c) (now : UInt64) (thread : UInt32)
    (trouble : PageId → Trouble) : c.attempt now thread trouble =
      if 2 ^ 64 < c.collect.1.length + c.flushThreads then none else some (c.cycle now thread trouble) := by
  unfold Checkpointer.attempt
  simp only [breaksOff_iff ready.word ready.length_collect]

/-- A complete cycle leaves only the cached pages to the next one. -/
theorem Effect.collect_after {now : UInt64} {thread : UInt32}
    (effect : Effect marks j old now thread trouble c report after) (complete : report.failed = []) :
    (∀ page, page ∈ after.collect.1 ↔ page ∈ c.store.cache.ids) ∧
      after.collect.1.length ≤ c.collect.1.length := by
  have clean : after.store.dirty = [] := (effect.complete complete).1
  have cached : ∀ page, page ∈ after.collect.1 ↔ page ∈ c.store.cache.ids := by
    intro page
    refine mem_foldl_insertPage.trans ?_
    rw [clean, effect.cache]
    simp
  have ascending : after.collect.1.Pairwise (· < ·) :=
    ascending_foldl_insertPage (clean ▸ List.Pairwise.nil)
  refine ⟨cached, ((nodup_of_ascending ascending).subperm fun page mem => ?_).length_le⟩
  exact (effect.collected page).mpr (.inr ((cached page).mp mem))

/-- A cycle breaks off if a word cannot count its pages together with its threads. Otherwise it has its
effect, and if it was complete the next one finds nothing dirty, flushes what is cached and logs the same
last number, where its flushes go through. -/
theorem attempt_has_effect (ready : Ready place marks j old c) (now : UInt64) (thread : UInt32)
    (trouble : PageId → Trouble) :
    (c.attempt now thread trouble = none ↔ 2 ^ 64 < c.collect.1.length + c.flushThreads) ∧
    (c.collect.1.length + c.flushThreads ≤ 2 ^ 64 → ∃ report after,
      c.attempt now thread trouble = some (.ok report, after) ∧
      Effect marks j old now thread trouble c report after ∧
      (report.failed = [] → ∀ later worker refuses, ∃ again last,
        after.attempt later worker refuses = some (.ok again, last) ∧
        Effect marks j (old ++ report.lines) later worker refuses after again last ∧
        (∀ page, page ∈ after.collect.1 ↔ page ∈ c.store.cache.ids) ∧
        (again.failed = [] → again.record = some ⟨later, worker, 0, c.sequence.current⟩))) := by
  constructor
  · rw [ready.attempt]
    split
    · next past => exact iff_of_true rfl past
    · next fits => exact iff_of_false nofun fits
  · intro fits
    obtain ⟨report, after, done, effect, next⟩ := cycle_effect ready now thread trouble
    refine ⟨report, after, ?_, effect, fun complete later worker refuses => ?_⟩
    · rw [ready.attempt, if_neg (Nat.not_lt.mpr fits), done]
    · obtain ⟨cached, fewer⟩ := effect.collect_after complete
      obtain ⟨again, last, done, repeated, -⟩ := cycle_effect next later worker refuses
      have room : ¬ 2 ^ 64 < after.collect.1.length + after.flushThreads := by
        rw [effect.threads]
        omega
      refine ⟨again, last, ?_, repeated, cached, fun complete' => ?_⟩
      · rw [next.attempt, if_neg room, done]
      · rw [(repeated.complete complete').2, (effect.complete complete).1, effect.sequence]
        rfl

/-- Two dirty pages, with nothing in the way of their flushes. -/
def bothClear : PageStore :=
  { twoPages.store with
    disk := ⟨[(["pages"], .directory), (["pages", "page_0.dbp"], .file 0 [4, 3, 2, 1]),
      (["pages", "page_1.dbp"], .file 1 [0, 0, 0, 0]), (["checkpoint.log"], .file 2 [])], 3⟩
    dirty := [0, 1] }

/-- Their checkpointer, with so many threads that flush. -/
def clearing (threads : Nat) : Checkpointer := { twoPages with store := bothClear, flushThreads := threads }

theorem tended_bothClear : Tended ["pages"] ["pages"] bothClear.disk := by
  refine ⟨leadsTo_of_follow (by rfl) (by rfl), ⟨by decide, by decide⟩, fun name e there => ?_⟩
  simp [bothClear, Volume.entry?, Path.child, List.lookup_cons] at there
  split at there
  · exact .inr ⟨_, _, (Option.some.inj there).symm⟩
  · split at there
    · exact .inr ⟨_, _, (Option.some.inj there).symm⟩
    · cases there

theorem ready_clearing {threads : Nat} (word : threads < 2 ^ 64) :
    Ready ["pages"] ["checkpoint.log"] 2 [] (clearing threads) where
  tended := tended_bothClear
  ascending := by
    change bothClear.dirty.Pairwise (· < ·)
    decide
  log := rfl
  file := rfl
  outside name same := by simp [Path.child] at same
  word := word

/-- The first cycle logs two dirty pages, and the next one none. -/
theorem attempt_has_effect_twice :
    ∃ after last, (clearing 2).attempt 5 0 = some (.ok ⟨some ⟨5, 0, 2, 0⟩, 2, []⟩, after) ∧
      after.attempt 6 1 = some (.ok ⟨some ⟨6, 1, 0, 0⟩, 0, []⟩, last) ∧
      ∀ page, last.store.disk.read (last.store.file page) =
        bothClear.disk.read (bothClear.file page) := by
  have pages : (clearing 2).collect.1.length = 2 := by decide
  have succeed : (clearing 2).collect.1.filter (fails bothClear fun _ => .none) = [] := by
    decide +kernel
  have ready : Ready ["pages"] ["checkpoint.log"] 2 [] (clearing 2) := ready_clearing (by decide)
  obtain ⟨-, goes⟩ := attempt_has_effect ready 5 0 fun _ => .none
  obtain ⟨⟨record, flushed, failed⟩, after, done, effect, next⟩ := goes (by rw [pages]; decide)
  obtain rfl : failed = [] := effect.failed.trans succeed
  obtain rfl : flushed = 2 := effect.total.trans pages
  obtain ⟨-, rfl⟩ := effect.complete rfl
  obtain ⟨⟨record, flushed, failed⟩, last, again, repeated, cached, logged⟩ :=
    next rfl 6 1 fun _ => .none
  have nothing : after.collect.1 = [] :=
    List.eq_nil_iff_forall_not_mem.mpr fun page mem => List.not_mem_nil ((cached page).mp mem)
  obtain rfl : failed = [] := by simpa [nothing] using repeated.failed
  obtain rfl : flushed = 0 := by simpa [nothing] using repeated.total
  obtain rfl := logged rfl
  exact ⟨after, last, done, again, fun page => (repeated.bytes page).trans (effect.bytes page)⟩

/-- With more threads than the word has room for beside two pages, no page is flushed. -/
theorem attempt_without_effect :
    let threads := 18446744073709551615
    Ready ["pages"] ["checkpoint.log"] 2 [] (clearing threads) ∧
      (Engine.threaded threads).validate = .ok () ∧ (clearing threads).collect.1 = [0, 1] ∧
      ¬ ∃ report after, (clearing threads).attempt 5 0 = some (.ok report, after) := by
  intro threads
  have breaks : (clearing threads).attempt 5 0 = none := if_pos (by decide)
  refine ⟨ready_clearing (by decide), by rfl, by decide, ?_⟩
  rintro ⟨report, after, done⟩
  rw [breaks] at done
  cases done

end Checkpoint.Checkpointer

end PageJournal
