import PageJournal.Proofs.Checkpoint.Cycled
import PageJournal.Proofs.Checkpoint.Transparent

/-! The pages of an engine, whatever its cache holds. The log writer and the checkpoints change none of them; a
transaction changes one if it writes and its operation goes through. -/
namespace PageJournal

namespace Volume

variable {dir place : Path} {v : Volume}

/-- An open file that stands outside the directory is none of the page files. -/
theorem Tended.orderly_file (tended : Tended dir place v) {p : Path} (outside : ∀ name, p ≠ place.child name)
    {k : Nat} {reversed : Bytes} (there : v.entry? p = some (.file k reversed)) :
    v.Orderly (.file k) dir place where
  leads := tended.leads
  kind x e stands := by
    rcases tended.orderly.kind x e stands with directory | ⟨i, bytes, rfl, below, -⟩
    · exact .inl directory
    · refine .inr ⟨i, bytes, rfl, below, fun same => ?_⟩
      cases same
      exact outside _ (tended.sound.eq_of_identity there stands)
  apart := tended.orderly.apart
  known i same := by
    cases same
    exact tended.sound.below k (mem_identities there rfl)

end Volume

namespace Table

/-- A write that goes through changes one page, and any other none. -/
theorem write_contents (t : Table) (page : PageId) (payload : Bytes) (trouble : Trouble) :
    (t.write page payload trouble).2.pageSize = t.pageSize ∧
      (t.write page payload trouble).2.pageCount = t.pageCount ∧
      (t.write page payload trouble).2.contents =
        if (t.write page payload trouble).1.isOk
        then Function.update t.contents page (.ok (padded t.pageSize payload)) else t.contents := by
  obtain ⟨size, count, contents⟩ := t.act_contents (.write page payload trouble)
  refine ⟨size, count, funext fun q => (contents q).trans ?_⟩
  dsimp only [act]
  rcases (t.write page payload trouble).1 with fault | ⟨⟩
  · rfl
  · dsimp only [Answer.written?]
    by_cases same : page = q
    · subst same
      rw [if_pos rfl]
      exact (Function.update_self page _ t.contents).symm
    · rw [if_neg same]
      exact (Function.update_of_ne (Ne.symm same) _ t.contents).symm

end Table

namespace Engine

open Volume PageStore

variable {home : Path} {log marks : Bytes} {size : Nat} {pageCount : PageId} {contents : PageId → Bytes}
  {e after : Engine}

/-- Every page that the engine has holds these bytes, and so does every copy of it. -/
def Holds (home : Path) (size : Nat) (pageCount : PageId) (contents : PageId → Bytes) (e : Engine) : Prop :=
  ∃ t : Table, Shows e.checkpointLog.file (home.child pagesName) t e.store ∧ t.pageSize = size ∧
    t.pageCount = pageCount ∧ ∀ page < pageCount, t.contents page = .ok (contents page)

theorem Settled.orderly (settled : e.Settled home log marks) :
    e.store.disk.Orderly e.checkpointLog.file e.store.dir (home.child pagesName) := by
  obtain ⟨k, file, there⟩ := settled.marks
  rw [file]
  exact settled.reached.tended.orderly_file (child_ne_grandchild home checkpointLogName pagesName) there

theorem Holds.attends (holds : e.Holds home size pageCount contents) (attends : Attends home e after)
    (settled : after.Settled home log marks) : after.Holds home size pageCount contents := by
  obtain ⟨t, shows, pages⟩ := holds
  refine ⟨t, ?_, pages⟩
  have orderly := settled.orderly
  rw [attends.furnished.checkpoints, attends.furnished.pages] at orderly
  have moved := shows.onDisk orderly fun x => attends.pages x.name
  rw [attends.furnished.checkpoints, attends.store]
  exact ⟨moved.orderly, moved.agrees, moved.table⟩

theorem Holds.cycle (holds : e.Holds home size pageCount contents) (thread : UInt32) (trouble : PageId → Trouble) :
    (e.cycle thread trouble).2.Holds home size pageCount contents := by
  obtain ⟨t, shows, pages⟩ := holds
  have tends : Checkpoint.Checkpointer.Tends e.checkpointLog.file (home.child pagesName) t
      e.now.2.checkpointer := ⟨shows, rfl⟩
  have cycled := tends.cycle e.now.1 thread trouble
  refine ⟨t.flushed t.dirty trouble, ?_, pages⟩
  have file : (e.cycle thread trouble).2.checkpointLog.file = e.checkpointLog.file := cycled.log
  rw [file]
  exact cycled.shows

theorem Holds.count (holds : e.Holds home size pageCount contents) (c : Counter) :
    (e.count c).Holds home size pageCount contents := by
  obtain ⟨t, shows, pages⟩ := holds
  exact ⟨t, shows.count c, pages⟩

theorem Holds.read (holds : e.Holds home size pageCount contents) (page : PageId) :
    (e.read page).2.Holds home size pageCount contents := by
  obtain ⟨t, shows, pages⟩ := holds
  have fetched := (shows.fetch page).2
  unfold Engine.read Engine.onStore
  dsimp only
  rcases done : e.store.fetch page with ⟨_ | _, s⟩
  all_goals rw [done] at fetched
  · exact ⟨t, fetched.count .errors, pages⟩
  · exact ⟨t, fetched, pages⟩

/-- The pages behind a transaction whose operation went through. -/
def written (size : Nat) (t : Transaction) (contents : PageId → Bytes) : PageId → Bytes :=
  if t.operation.isWrite then Function.update contents t.page (padded size t.payload) else contents

theorem Holds.apply (holds : e.Holds home size pageCount contents) (t : Transaction) (trouble : Trouble) :
    (e.apply t trouble).2.Holds home size pageCount
      (if (e.apply t trouble).1.isOk then written size t contents else contents) := by
  obtain ⟨table, shows, rfl, rfl, pages⟩ := holds
  unfold Engine.apply Engine.onStore written
  cases t.operation.isWrite with
  | true =>
    obtain ⟨answer, after⟩ := shows.write t.page t.payload trouble
    obtain ⟨size, count, contents'⟩ := table.write_contents t.page t.payload trouble
    refine ⟨_, after, size, count, fun page inside => ?_⟩
    simp only [if_true, answer, contents']
    cases (table.write t.page t.payload trouble).1.isOk with
    | false => exact pages page inside
    | true =>
      simp only [if_true]
      by_cases same : page = t.page
      · rw [same, Function.update_self, Function.update_self]
      · rw [Function.update_of_ne same, Function.update_of_ne same]
        exact pages page inside
  | false =>
    refine ⟨table, (shows.fetch t.page).2, rfl, rfl, fun page inside => ?_⟩
    simp only [Bool.false_eq_true, if_false, ite_self]
    exact pages page inside

/-- Each page can be read from its file and through the cache alike. -/
theorem Holds.answers (holds : e.Holds home size pageCount contents) {page : PageId} (inside : page < pageCount) :
    e.store.disk.read (e.store.file page : Path) = .ok (contents page) ∧
      (e.store.fetch page).1 = .ok (contents page) := by
  obtain ⟨t, shows, rfl, rfl, pages⟩ := holds
  have file : e.store.readFile page = .ok (contents page) :=
    (congrFun (congrArg Table.contents shows.table) page).trans (pages page inside)
  refine ⟨(readFile_eq_ok.mp file).1, (shows.fetch page).1.trans ?_⟩
  rw [Table.read, if_neg (UInt32.not_le.mpr inside), pages page inside]

end Engine

end PageJournal
