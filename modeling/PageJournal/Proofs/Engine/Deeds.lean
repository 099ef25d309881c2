import Mathlib.Algebra.BigOperators.Ring.List
import Mathlib.Algebra.Ring.Nat
import Mathlib.Logic.Relation
import PageJournal.Proofs.Checkpoint.Cycled
import PageJournal.Proofs.Lists

/-! What can be done with an engine, which counters its answer says were moved, and how often a history moves
each of them. -/
namespace PageJournal

open Log

/-- What a look-up of a page counts: nothing out of range, else a hit, or a miss and the read behind it. -/
def lookedUp (pageCount page : PageId) (cached ok : Bool) : List Counter :=
  if pageCount ≤ page then []
  else if cached then [.cacheHits]
  else .cacheMisses :: if ok then [.reads] else []

theorem count_lookedUp (pageCount page : PageId) (cached ok : Bool) (c : Counter) :
    (lookedUp pageCount page cached ok).count c =
      if page < pageCount then
        match c with
        | .cacheHits => if cached then 1 else 0
        | .cacheMisses => if cached then 0 else 1
        | .reads => if !cached && ok then 1 else 0
        | _ => 0
      else 0 := by
  unfold lookedUp
  by_cases inside : page < pageCount
  · rw [if_neg (UInt32.not_le.mpr inside), if_pos inside]
    cases cached <;> cases ok <;> cases c <;> rfl
  · rw [if_pos (UInt32.not_lt.mp inside), if_neg inside]
    rfl

/-- What the operation of a transaction counts. -/
def operated (pageCount : PageId) (t : Transaction) (cached ok : Bool) : List Counter :=
  if t.operation.isWrite then if ok then [.writes] else []
  else lookedUp pageCount t.page cached ok

namespace PageStore

theorem fetchMissed_counters (s : PageStore) (page : PageId) :
    (s.fetchMissed page).2.counters =
      s.counters.tickAll (if (s.fetchMissed page).1.isOk then [.reads] else []) := by
  unfold fetchMissed readCounted
  rcases s.readFile page with fault | bytes <;> rfl

theorem fetch_counters (s : PageStore) (page : PageId) :
    (s.fetch page).2.counters =
      s.counters.tickAll (lookedUp s.pageCount page (s.cache.contains page) (s.fetch page).1.isOk) := by
  unfold fetch checkRange lookedUp
  by_cases out : s.pageCount ≤ page
  · simp only [if_pos out]
    rfl
  · simp only [if_neg out]
    unfold lookup Cache.lookupCounted Cache.lookup Cache.contains
    rcases s.cache.entry? page with _ | entry
    · exact fetchMissed_counters { s with counters := s.counters.tick .cacheMisses } page
    · rfl

theorem write_counters (s : PageStore) (page : PageId) (payload : Bytes) (t : Trouble) :
    (s.write page payload t).2.counters =
      s.counters.tickAll (if (s.write page payload t).1.isOk then [.writes] else []) := by
  rcases s.write_cases page payload t with ⟨fault, refused⟩ | ⟨cause, -, failed⟩ | ⟨-, done⟩
  · rw [refused]
    rfl
  · rw [failed]
    rfl
  · rw [done]
    rfl

end PageStore

namespace Engine

open Volume PageStore

/-- The background log writer goes through some rounds. -/
abbrev Rounds : Engine → Engine → Prop := Relation.ReflTransGen fun e after => after = e.writerRound

/-- A copy of the page is in the cache. -/
def caches (e : Engine) (page : PageId) : Bool := e.store.cache.contains page

theorem apply_counters (e : Engine) (t : Transaction) (trouble : Trouble) :
    (e.apply t trouble).2.store.counters = e.store.counters.tickAll
      (operated e.store.pageCount t (e.caches t.page) (e.apply t trouble).1.isOk) := by
  unfold Engine.apply Engine.onStore operated caches
  cases t.operation.isWrite with
  | true => exact e.store.write_counters t.page t.payload trouble
  | false =>
    have ok : (((e.store.fetch t.page).1.map fun _ => ()) : Except Fault Unit).isOk =
        (e.store.fetch t.page).1.isOk := by
      cases (e.store.fetch t.page).1 <;> rfl
    exact ok ▸ e.store.fetch_counters t.page

/-- Something that was done with an engine, and what came of it. -/
inductive Deed where
  /-- Numbers were taken, the log writer wrote, or the environment changed page files. -/
  | quiet
  | executed (t : Transaction) (cached : Bool) (outcome : Except Fault Transaction)
  | read (page : PageId) (cached : Bool) (outcome : Except Fault Bytes)
  | written (outcome : Except Fault Unit)
  | checkpointed (outcome : Except Fault Checkpoint.Report)

/-- What can be done. While a transaction is executed the log writer may come, and between any two operations
the environment may put anything in the place of page files but links and the logs. -/
inductive Does (home : Path) (e : Engine) : Deed → Engine → Prop
  | begin (thread : UInt32) (operation : Operation) (page : PageId) (payload : Bytes) :
    Does home e .quiet (e.begin thread operation page payload).2
  | execute (t : Transaction) {outcome : Except Fault Transaction} {after : Engine}
      (run : Executes Rounds e t outcome after) :
    Does home e (.executed t (e.caches t.page) outcome) after
  | submit (thread : UInt32) {t : Transaction} {generator : Generator} {begun after : Engine}
      (generated : e.generate e.generator thread = (t, generator, begun)) {outcome : Except Fault Transaction}
      (run : Executes Rounds { begun with generator } t outcome after) :
    Does home e (.executed t (e.caches t.page) outcome) after
  | submitWith (g : Generator) (thread : UInt32) {t : Transaction} {generator : Generator} {begun after : Engine}
      (generated : e.generate g thread = (t, generator, begun)) {outcome : Except Fault Transaction}
      (run : Executes Rounds begun t outcome after) :
    Does home e (.executed t (e.caches t.page) outcome) after
  | read (page : PageId) : Does home e (.read page (e.caches page) (e.read page).1) (e.read page).2
  | write (page : PageId) (payload : Bytes) (trouble : Trouble) :
    Does home e (.written (e.write page payload trouble).1) (e.write page payload trouble).2
  | checkpoint (thread : UInt32) (trouble : PageId → Trouble) :
    Does home e (.checkpointed (e.checkpoint thread trouble).1) (e.checkpoint thread trouble).2
  | round : Does home e .quiet e.writerRound
  | meddle {disk : Volume}
      (within : Within e.dir home e.store.dir (home.child pagesName) e.store.disk disk) :
    Does home e .quiet (e.onDisk disk)

/-- What was done with an engine, in this order. -/
inductive History (home : Path) (e : Engine) : List Deed → Engine → Prop
  | here : History home e [] e
  | more {deeds : List Deed} {mid after : Engine} {deed : Deed} (history : History home e deeds mid)
      (does : Does home mid deed after) : History home e (deeds ++ [deed]) after

namespace Deed

def committed : Deed → Bool
  | .executed _ _ (.ok _) => true
  | _ => false

def abandoned : Deed → Bool
  | .executed _ _ (.error _) => true
  | _ => false

def failed : Deed → Bool
  | .executed _ _ (.error _) | .read _ _ (.error _) | .written (.error _) | .checkpointed (.error _) => true
  | _ => false

/-- How many pages a report lists as failed. -/
def failedPages : Deed → Nat
  | .checkpointed (.ok report) => report.failed.length
  | _ => 0

def wrote : Deed → Bool
  | .executed t _ (.ok _) => t.operation.isWrite
  | .written (.ok _) => true
  | _ => false

/-- A page that the store has was looked up, by a select or directly. -/
def sought (pageCount : PageId) : Deed → Bool
  | .executed t _ _ => !t.operation.isWrite && t.page < pageCount
  | .read page _ _ => page < pageCount
  | _ => false

def found (pageCount : PageId) : Deed → Bool
  | .executed t true _ => !t.operation.isWrite && t.page < pageCount
  | .read page true _ => page < pageCount
  | _ => false

def lacked (pageCount : PageId) : Deed → Bool
  | .executed t false _ => !t.operation.isWrite && t.page < pageCount
  | .read page false _ => page < pageCount
  | _ => false

/-- No copy of the page was found, and its file could be read. -/
def missed (pageCount : PageId) : Deed → Bool
  | .executed t false (.ok _) => !t.operation.isWrite && t.page < pageCount
  | .read page false (.ok _) => page < pageCount
  | _ => false

def complete : Deed → Bool
  | .checkpointed (.ok report) => report.isComplete
  | _ => false

/-- Which counters a deed moved. -/
def ticks (pageCount : PageId) : Deed → List Counter
  | .quiet => []
  | .executed t cached outcome =>
    operated pageCount t cached outcome.isOk ++ if outcome.isOk then [.transactions] else [.errors]
  | .read page cached outcome =>
    lookedUp pageCount page cached outcome.isOk ++ if outcome.isOk then [] else [.errors]
  | .written outcome => if outcome.isOk then [.writes] else [.errors]
  | .checkpointed (.ok report) => report.ticks
  | .checkpointed (.error _) => [.errors]

/-- How many records a deed added to the log. -/
def records (d : Deed) : Nat := if d.committed then 2 else if d.abandoned then 1 else 0

/-- How often a deed moves a counter. -/
def moves (pageCount : PageId) (d : Deed) : Counter → Nat
  | .transactions => if d.committed then 1 else 0
  | .errors => (if d.failed then 1 else 0) + d.failedPages
  | .writes => if d.wrote then 1 else 0
  | .cacheHits => if d.found pageCount then 1 else 0
  | .cacheMisses => if d.lacked pageCount then 1 else 0
  | .reads => if d.missed pageCount then 1 else 0
  | .checkpoints => if d.complete then 1 else 0
  | .recordsWritten | .batches | .syncs => 0

theorem count_operated (pageCount : PageId) (t : Transaction) (cached ok : Bool) (c : Counter) :
    (operated pageCount t cached ok).count c =
      if t.operation.isWrite then if c = .writes ∧ ok then 1 else 0
      else (lookedUp pageCount t.page cached ok).count c := by
  unfold operated
  cases t.operation.isWrite
  · rfl
  · cases ok <;> cases c <;> rfl

theorem count_ticks (pageCount : PageId) (d : Deed) (c : Counter) :
    (d.ticks pageCount).count c = d.moves pageCount c := by
  cases d with
  | quiet => cases c <;> rfl
  | executed t cached outcome =>
    rw [ticks, List.count_append, count_operated, count_lookedUp]
    rcases outcome with fault | done
    all_goals
      cases kind : t.operation.isWrite <;> cases cached <;> cases c <;>
        simp [moves, committed, failed, failedPages, wrote, found, lacked, missed, complete, kind,
          Except.isOk, Except.toBool]
  | read page cached outcome =>
    rw [ticks, List.count_append, count_lookedUp]
    rcases outcome with fault | bytes
    all_goals
      cases cached <;> cases c <;>
        simp [moves, committed, failed, failedPages, wrote, found, lacked, missed, complete,
          Except.isOk, Except.toBool]
  | written outcome =>
    rcases outcome with fault | done
    all_goals cases c <;> rfl
  | checkpointed outcome =>
    rcases outcome with fault | report
    · cases c <;> rfl
    · rw [ticks, Checkpoint.Report.count_ticks]
      cases c with
      | errors => exact (Nat.zero_add _).symm
      | _ => rfl

theorem found_or_lacked (pageCount : PageId) (d : Deed) :
    (if d.sought pageCount then 1 else 0) =
      (if d.found pageCount then 1 else 0) + if d.lacked pageCount then 1 else 0 := by
  rcases d with _ | ⟨t, _ | _, outcome⟩ | ⟨page, _ | _, outcome⟩ | outcome | outcome
  all_goals simp [sought, found, lacked]

theorem records_eq (d : Deed) :
    d.records = 2 * (if d.committed then 1 else 0) + if d.abandoned then 1 else 0 := by
  rcases d with _ | ⟨t, cached, _ | _⟩ | ⟨page, cached, outcome⟩ | outcome | outcome
  all_goals rfl

end Deed

theorem sum_flatMap (pageCount : PageId) (c : Counter) (deeds : List Deed) :
    (deeds.flatMap (Deed.ticks pageCount)).count c = (deeds.map fun d => d.moves pageCount c).sum := by
  rw [List.count_flatMap]
  exact congrArg List.sum (List.map_congr_left fun d _ => d.count_ticks pageCount c)

theorem sum_moves_errors (pageCount : PageId) (deeds : List Deed) :
    (deeds.map fun d => d.moves pageCount .errors).sum =
      deeds.countP Deed.failed + (deeds.map Deed.failedPages).sum := by
  rw [countP_eq_sum, ← List.sum_map_add]
  rfl

theorem countP_sought (pageCount : PageId) (deeds : List Deed) :
    deeds.countP (Deed.sought pageCount) =
      deeds.countP (Deed.found pageCount) + deeds.countP (Deed.lacked pageCount) := by
  rw [countP_eq_sum, countP_eq_sum, countP_eq_sum, ← List.sum_map_add]
  exact congrArg List.sum (List.map_congr_left fun d _ => d.found_or_lacked pageCount)

theorem sum_records (deeds : List Deed) : (deeds.map Deed.records).sum =
    2 * deeds.countP Deed.committed + deeds.countP Deed.abandoned := by
  rw [countP_eq_sum, countP_eq_sum, ← List.sum_map_mul_left, ← List.sum_map_add]
  exact congrArg List.sum (List.map_congr_left fun d _ => d.records_eq)

end Engine

end PageJournal
