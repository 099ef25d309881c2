import PageJournal.Proofs.Engine.Reopening
import PageJournal.Proofs.Engine.Shown

/-! Where an engine stands while transactions are executed on it: what it has logged, what its pages hold, and which
numbers it gives. Each stage of an execution and whatever the background services do in between keep this. -/
namespace PageJournal

open Log

/-- What a committed record tells of its transaction. -/
structure Fact where
  transaction : UInt64
  operation : Operation
  page : PageId
  size : UInt64

/-- A write to this page. -/
def Fact.writes (page : PageId) (f : Fact) : Bool := f.operation.isWrite && f.page == page

def Log.Record.fact (r : Record) : Fact := ⟨r.transaction, r.operation, r.page, r.size⟩

def Transaction.fact (t : Transaction) : Fact := ⟨t.id, t.operation, t.page, UInt64.ofNat t.payload.length⟩

namespace Engine

open Volume PageStore

/-- A background service acts once, or the caller asks for a checkpoint. -/
inductive Serves (e : Engine) : Engine → Prop
  | round : Serves e e.writerRound
  | cycle (thread : UInt32) (trouble : PageId → Trouble) : Serves e (e.cycle thread trouble).2
  | checkpoint (thread : UInt32) (trouble : PageId → Trouble) : Serves e (e.checkpoint thread trouble).2

/-- The background services act, any number of times. -/
abbrev Services : Engine → Engine → Prop := Relation.ReflTransGen Serves

/-- The engine as a session in which nothing but transactions happens. -/
def session (e : Engine) (stages : List Stage) (added : List Record) : Session :=
  ⟨e, stages, .empty, none, added, []⟩

/-- Where an engine stands: what was added is in the log or waits, the pages hold these bytes, and the numbers
are the next ones. -/
structure Ledger (home : Path) (old : Bytes) (size : Nat) (pageCount : PageId) (stages : List Stage)
    (added : List Record) (contents : PageId → Bytes) (e : Engine) : Prop where
  running : e.running = true
  logged : ∃ done marks, done ++ e.buffer.records = added ∧
    e.Settled home (old ++ done.flatMap Record.line) marks
  pages : e.Holds home size pageCount contents
  numbered : ∃ j, (e.session stages added).Numbered (Session.marks old) j

variable {home : Path} {old : Bytes} {size : Nat} {pageCount : PageId} {stages : List Stage}
  {added : List Record} {contents : PageId → Bytes} {e after : Engine}

/-- The services leave the ledger as it is. -/
theorem Ledger.serves (ledger : e.Ledger home old size pageCount stages added contents)
    (serves : Serves e after) : after.Ledger home old size pageCount stages added contents := by
  obtain ⟨done, marks, whole, settled⟩ := ledger.logged
  obtain ⟨j, numbered⟩ := ledger.numbered
  have cycled : ∀ thread trouble,
      (e.cycle thread trouble).2.Ledger home old size pageCount stages added contents := by
    intro thread trouble
    have pages := ledger.pages.cycle thread trouble
    obtain ⟨report, after, cycled, reported, settled⟩ := settled.cycle thread trouble
    rw [cycled] at pages ⊢
    refine ⟨reported.running.trans ledger.running, ⟨done, _, ?_, settled⟩, pages,
      j, numbered.same rfl rfl (congrArg _ reported.sequence) reported.transaction⟩
    exact (congrArg (fun b : Buffer => done ++ b.records) reported.buffer).trans whole
  cases serves with
  | round =>
    obtain ⟨drains, drained⟩ := settled.writerRound
    refine ⟨ledger.running, ⟨added, marks, ?_, ?_⟩, ledger.pages.attends drains.toAttends drained,
      j, numbered.same rfl rfl drains.next drains.transaction⟩
    · rw [drains.waiting, List.append_nil]
    · rw [← whole, List.flatMap_append, ← List.append_assoc]
      exact drained
  | cycle thread trouble => exact cycled thread trouble
  | checkpoint thread trouble =>
    rw [settled.checkpoint]
    exact cycled thread trouble

theorem Ledger.services (ledger : e.Ledger home old size pageCount stages added contents)
    (services : Services e after) : after.Ledger home old size pageCount stages added contents := by
  induction services with
  | refl => exact ledger
  | tail _ serves ih => exact ih.serves serves

/-- Nothing happens to the store and to the log. -/
theorem Ledger.aside (ledger : e.Ledger home old size pageCount stages added contents) (after : Engine)
    (furnished : Furnished e after) (running : after.running = e.running) (store : after.store = e.store)
    (buffer : after.buffer = e.buffer) {more : List Stage}
    (numbered : ∃ j, (after.session more added).Numbered (Session.marks old) j) :
    after.Ledger home old size pageCount more added contents where
  running := running.trans ledger.running
  logged := by
    obtain ⟨done, marks, whole, settled⟩ := ledger.logged
    exact ⟨done, marks, by rw [buffer, whole], settled.congr furnished (by rw [store])⟩
  pages := by
    have pages := ledger.pages
    unfold Holds at pages ⊢
    rwa [furnished.checkpoints, store]
  numbered := numbered

theorem Ledger.count (ledger : e.Ledger home old size pageCount stages added contents) (c : Counter) :
    (e.count c).Ledger home old size pageCount stages added contents where
  running := ledger.running
  logged := by
    obtain ⟨done, marks, whole, settled⟩ := ledger.logged
    exact ⟨done, marks, whole, settled.congr ⟨rfl, rfl, rfl, rfl, rfl⟩ rfl⟩
  pages := ledger.pages.count c
  numbered := by
    obtain ⟨j, numbered⟩ := ledger.numbered
    exact ⟨j, numbered.same rfl rfl rfl rfl⟩

theorem Ledger.log (ledger : e.Ledger home old size pageCount stages added contents) (t : Transaction)
    (lsn : UInt64) {more : List Stage}
    (numbered : ∃ j, ((e.log t lsn).session more (added ++ [t.record lsn e.now.1])).Numbered
      (Session.marks old) j) :
    (e.log t lsn).Ledger home old size pageCount more (added ++ [t.record lsn e.now.1]) contents where
  running := ledger.running
  logged := by
    obtain ⟨done, marks, whole, settled⟩ := ledger.logged
    refine ⟨done, marks, ?_, settled.congr ⟨rfl, rfl, rfl, rfl, rfl⟩ rfl⟩
    have grown : (e.log t lsn).buffer.records = e.buffer.records ++ [t.record lsn e.now.1] :=
      Buffer.records_add _ _
    rw [grown, ← List.append_assoc, whole]
  pages := ledger.pages
  numbered := numbered

theorem Ledger.apply (ledger : e.Ledger home old size pageCount stages added contents) (t : Transaction)
    (trouble : Trouble) {more : List Stage}
    (numbered : ∃ j, ((e.apply t trouble).2.session more added).Numbered (Session.marks old) j) :
    (e.apply t trouble).2.Ledger home old size pageCount more added
      (if (e.apply t trouble).1.isOk then written size t contents else contents) where
  running := ledger.running
  logged := by
    obtain ⟨done, marks, whole, settled⟩ := ledger.logged
    exact ⟨done, marks, whole, settled.apply t trouble⟩
  pages := ledger.pages.apply t trouble
  numbered := numbered

theorem Ledger.read (ledger : e.Ledger home old size pageCount stages added contents) (page : PageId) :
    (e.read page).2.Ledger home old size pageCount stages added contents := by
  obtain ⟨done, marks, whole, settled⟩ := ledger.logged
  obtain ⟨j, numbered⟩ := ledger.numbered
  have fetched := settled.onStore (settled.reached.fetch page)
  have pages := ledger.pages.read page
  unfold Engine.read Engine.onStore at pages ⊢
  dsimp only at pages ⊢
  generalize e.store.fetch page = answer at fetched pages
  obtain ⟨_ | _, s⟩ := answer
  · exact ⟨ledger.running, ⟨done, marks, whole, fetched.congr ⟨rfl, rfl, rfl, rfl, rfl⟩ rfl⟩, pages,
      j, numbered.same rfl rfl rfl rfl⟩
  · exact ⟨ledger.running, ⟨done, marks, whole, fetched⟩, pages, j, numbered.same rfl rfl rfl rfl⟩

theorem Ledger.begin (ledger : e.Ledger home old size pageCount stages added contents)
    (room : (Session.marks old).Room (stages.length + 1)) (thread : UInt32) (operation : Operation)
    (page : PageId) (payload : Bytes) :
    (e.begin thread operation page payload).2.Ledger home old size pageCount
      (stages ++ [.begun (e.begin thread operation page payload).1]) added contents := by
  obtain ⟨j, numbered⟩ := ledger.numbered
  refine ledger.aside (e.begin thread operation page payload).2 ⟨rfl, rfl, rfl, rfl, rfl⟩ rfl rfl rfl ?_
  refine Session.numbered_runs_from numbered (Session.runs_begin _ thread operation page payload) ?_
  simpa [session] using room

theorem Ledger.id (ledger : e.Ledger home old size pageCount stages added contents) (thread : UInt32)
    (operation : Operation) (page : PageId) (payload : Bytes) :
    (e.begin thread operation page payload).1.id = (Session.marks old).idAt stages.length := by
  obtain ⟨j, numbered⟩ := ledger.numbered
  exact numbered.transaction

section Execution

variable {i : Nat} {t : Transaction} {trouble : Trouble} {lsn : UInt64}
  (ledger : e.Ledger home old size pageCount stages added contents)
  (room : (Session.marks old).Room stages.length)

include ledger room

theorem Ledger.step {s : Session} (step : Session.Step (e.session stages added) s)
    (length : s.stages.length = stages.length) : ∃ j, s.Numbered (Session.marks old) j := by
  obtain ⟨j, numbered⟩ := ledger.numbered
  exact Session.numbered_step numbered step (length ▸ room)

theorem Ledger.intend (begun : stages[i]? = some (.begun t)) :
    (e.log t t.lsn).Ledger home old size pageCount (stages.set i (.intended t))
      (added ++ [t.record t.lsn e.now.1]) contents :=
  ledger.log t t.lsn (ledger.step room (.intend begun) List.length_set)

theorem Ledger.refuse (intended : stages[i]? = some (.intended t)) {fault : Fault}
    (failed : (e.apply t trouble).1 = .error fault) :
    (e.apply t trouble).2.Ledger home old size pageCount (stages.set i .ended) added contents := by
  obtain ⟨j, ended⟩ := ledger.step room (.abandon intended trouble failed) List.length_set
  have refused := ledger.apply t trouble ⟨j, ended.same rfl rfl rfl rfl⟩
  rwa [failed] at refused

theorem Ledger.accept (intended : stages[i]? = some (.intended t)) (done : (e.apply t trouble).1 = .ok ()) :
    (e.apply t trouble).2.Ledger home old size pageCount (stages.set i (.applied t)) added
      (written size t contents) := by
  have accepted := ledger.apply t trouble (ledger.step room (.apply intended trouble done) List.length_set)
  rwa [done] at accepted

theorem Ledger.number (applied : stages[i]? = some (.applied t)) :
    e.allocateLsn.2.Ledger home old size pageCount (stages.set i (.numbered t.commit e.allocateLsn.1)) added
      contents :=
  ledger.aside e.allocateLsn.2 ⟨rfl, rfl, rfl, rfl, rfl⟩ rfl rfl rfl
    (ledger.step room (.number applied) List.length_set)

theorem Ledger.commit (numbered : stages[i]? = some (.numbered t lsn)) :
    ((e.log t lsn).count .transactions).Ledger home old size pageCount (stages.set i .ended)
      (added ++ [t.record lsn e.now.1]) contents := by
  obtain ⟨j, ended⟩ := ledger.step room (.commit numbered) List.length_set
  exact (ledger.log t lsn ⟨j, ended.same rfl rfl rfl rfl⟩).count .transactions

/-- A transaction that ends well is written and told; any other leaves the pages as they were. -/
theorem Ledger.execute (begun : stages[i]? = some (.begun t)) {outcome : Except Fault Transaction}
    (run : Executes Services e t outcome after) :
    ∃ more, after.Ledger home old size pageCount (stages.set i .ended) (added ++ more)
        (if outcome.isOk then written size t contents else contents) ∧
      (more.filter Record.committed).map Record.fact = if outcome.isOk then [t.fact] else [] := by
  have inside : i < stages.length := (List.getElem?_eq_some_iff.mp begun).1
  have here : ∀ stage, (stages.set i stage)[i]? = some stage := fun _ => List.getElem?_set_self inside
  have still : ∀ stage, (Session.marks old).Room (stages.set i stage).length :=
    fun _ => List.length_set.symm ▸ room
  obtain ⟨j, numbered⟩ := ledger.numbered
  -- its first record does not say that it is committed, so only a second one tells of it
  have early : t.committed = false := (numbered.fits i _ begun).2.1
  have first := ledger.intend room begun
  cases run with
  | @abandoned a b trouble fault intended failed applied =>
    have refused := (first.services intended).refuse (still _) (here _) failed
    have gone := (refused.services applied).count .errors
    rw [List.set_set] at gone
    refine ⟨_, gone.aside (b.abandon t fault) ⟨rfl, rfl, rfl, rfl, rfl⟩ rfl rfl rfl ?_, ?_⟩
    · obtain ⟨j, numbered⟩ := gone.numbered
      exact ⟨j, numbered.same rfl rfl rfl rfl⟩
    · simp [Transaction.record, early, Except.isOk, Except.toBool]
  | @committed a b d trouble intended done applied ready =>
    have accepted := (first.services intended).accept (still _) (here _) done
    rw [List.set_set] at accepted
    have numbered := (accepted.services applied).number (still _) (here _)
    rw [List.set_set] at numbered
    have last := (numbered.services ready).commit (still _) (here _)
    rw [List.set_set, List.append_assoc] at last
    refine ⟨_, last, ?_⟩
    simp [Transaction.record, Transaction.commit, Record.fact, Transaction.fact, early, Except.isOk,
      Except.toBool]

end Execution

end Engine

end PageJournal
