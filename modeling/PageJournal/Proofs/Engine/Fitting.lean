import PageJournal.Proofs.Checkpoint.Cycled
import PageJournal.Proofs.Transaction.Generated

/-! Generated transactions on an engine. Neither the size nor the number of its pages ever changes. So whatever was
done with an engine and goes on meanwhile, it has the page of a transaction that was made for its settings, and it
refuses what the transaction writes exactly if the tag is longer than a page. -/
namespace PageJournal

/-- There is no such page, or the payload does not fit a page. -/
def Fault.isMisfit : Fault → Bool
  | .pageOutOfRange .. | .payloadTooLarge .. => true
  | _ => false

namespace PageStore

variable {s : PageStore} {page : PageId} {payload : Bytes} {fault : Fault}

/-- The size and the number of the pages. -/
def shape (s : PageStore) : Nat × PageId := (s.pageSize, s.pageCount)

theorem shape_fetch (s : PageStore) (page : PageId) : (s.fetch page).2.shape = s.shape := by
  obtain ⟨cache, counters, frame⟩ := s.fetch_frame page
  rw [frame]
  rfl

theorem shape_write (s : PageStore) (page : PageId) (payload : Bytes) (t : Trouble) :
    (s.write page payload t).2.shape = s.shape := by
  rcases s.write_cases page payload t with ⟨fault, refused⟩ | ⟨cause, -, failed⟩ | ⟨-, done⟩
  · rw [refused]
  · rw [failed]
    rfl
  · rw [done]
    rfl

theorem shape_flush (s : PageStore) (page : PageId) (t : Trouble) : (s.flush page t).2.shape = s.shape := by
  obtain ⟨disk, dirty, frame⟩ := s.flush_frame page t
  rw [frame]
  rfl

theorem readFile_fault (failed : s.readFile page = .error fault) : fault.isMisfit = false := by
  unfold readFile at failed
  split at failed
  · cases failed
    rfl
  · cases failed
    rfl
  · split at failed
    · cases failed
    · cases failed
      rfl

theorem fetchMissed_fault (failed : (s.fetchMissed page).1 = .error fault) : fault.isMisfit = false := by
  unfold fetchMissed readCounted at failed
  rcases read : s.readFile page with cause | bytes
  all_goals
    rw [read] at failed
    cases failed
  exact readFile_fault read

theorem fetch_fault (inside : page < s.pageCount) (failed : (s.fetch page).1 = .error fault) :
    fault.isMisfit = false := by
  unfold fetch at failed
  rw [checkRange_eq_ok.mpr inside] at failed
  dsimp only at failed
  split at failed
  · cases failed
  · exact fetchMissed_fault failed

theorem prepare_inside (inside : page < s.pageCount) (payload : Bytes) :
    s.prepare page payload = Page.ofPayload page payload s.pageSize := by
  rw [prepare, checkRange_eq_ok.mpr inside]
  rfl

theorem write_large (inside : page < s.pageCount) (large : s.pageSize < payload.length) (t : Trouble) :
    (s.write page payload t).1 = .error (.payloadTooLarge payload.length s.pageSize) := by
  rw [write, prepare_inside inside, Page.ofPayload, if_pos large]

theorem write_fault (inside : page < s.pageCount) (fits : payload.length ≤ s.pageSize) {t : Trouble}
    (failed : (s.write page payload t).1 = .error fault) : fault.isMisfit = false := by
  rw [write, prepare_inside inside, Page.ofPayload, if_neg (Nat.not_lt.mpr fits)] at failed
  dsimp only [writeLocked, replaceFile] at failed
  rcases replaced : s.disk.replace t (s.file page) (padded s.pageSize payload) false with ⟨cause | _, disk⟩
  all_goals
    rw [replaced] at failed
    cases failed
  rfl

end PageStore

namespace Checkpoint.Checkpointer

open PageStore

theorem shape_flushPages (trouble : PageId → Trouble) (pages : List PageId) (s : PageStore) :
    (flushPages (fun page s => s.flush page (trouble page)) pages s).2.shape = s.shape := by
  induction pages generalizing s with
  | nil => rfl
  | cons page rest ih => exact (ih _).trans (s.shape_flush page (trouble page))

theorem shape_logRecord (now : UInt64) (thread : UInt32) (dirtyPages : Nat) (c : Checkpointer) :
    (c.logRecord now thread dirtyPages).2.store.shape = c.store.shape := by
  unfold logRecord
  dsimp only
  split <;> rfl

theorem shape_cycle (now : UInt64) (thread : UInt32) (c : Checkpointer) (trouble : PageId → Trouble) :
    (c.cycle now thread trouble).2.store.shape = c.store.shape := by
  have flushed : (c.flushedStore trouble).shape = c.store.shape := shape_flushPages trouble _ c.store
  unfold cycle cycleWith
  rw [flushAll_eq]
  dsimp only
  split
  · rw [← flushed]
    have logged := shape_logRecord now thread c.store.dirty.length
      { c with phase := .flushing, store := c.flushedStore trouble }
    split
    all_goals
      next result =>
      rw [result] at logged
      exact logged
  · rw [count_foldl]
    exact flushed

end Checkpoint.Checkpointer

namespace Engine

variable {c : Config} {e after : Engine}

/-- All that can happen to an engine, in sections that others may come between. -/
inductive Acts (e : Engine) : Engine → Prop
  | begin (thread : UInt32) (operation : Log.Operation) (page : PageId) (payload : Bytes) :
    Acts e (e.begin thread operation page payload).2
  | draw (thread : UInt32) :
    Acts e { (e.generate e.generator thread).2.2 with generator := (e.generate e.generator thread).2.1 }
  | number : Acts e e.allocateLsn.2
  | log (t : Transaction) (lsn : UInt64) : Acts e (e.log t lsn)
  | apply (t : Transaction) (trouble : Trouble) : Acts e (e.apply t trouble).2
  | count (c : Counter) : Acts e (e.count c)
  | note (component message : String) : Acts e (e.note component message)
  | read (page : PageId) : Acts e (e.read page).2
  | write (page : PageId) (payload : Bytes) (trouble : Trouble) : Acts e (e.write page payload trouble).2
  | cycle (thread : UInt32) (trouble : PageId → Trouble) : Acts e (e.cycle thread trouble).2
  | round : Acts e e.writerRound
  | stop : Acts e e.requestStop
  | join : Acts e e.joinServices
  | drain : Acts e e.drainRemaining.2
  | flush : Acts e e.flushEvents
  | meddle (disk : Volume) : Acts e (e.onDisk disk)

/-- Any number of things happen to an engine. -/
abbrev Passage : Engine → Engine → Prop := Relation.ReflTransGen Acts

/-- An execution is made of such sections. -/
theorem Executes.passage {t : Transaction} {outcome : Except Fault Transaction}
    (run : Executes Passage e t outcome after) : Passage e after := by
  have logged : Passage e (e.log t t.lsn) := .single (.log t t.lsn)
  cases run with
  | @abandoned a b trouble fault intended failed applied =>
    have there := ((logged.trans intended).tail (.apply t trouble)).trans applied
    exact (there.tail (.count .errors)).tail (.note "txn" _)
  | @committed a b last trouble intended done applied numbered =>
    have there := ((logged.trans intended).tail (.apply t trouble)).trans applied
    exact (((there.tail .number).trans numbered).tail (.log t.commit _)).tail (.count .transactions)

/-- A submission by the engine's own generator. -/
theorem executes_submit (e : Engine) (thread : UInt32) (trouble : Trouble) :
    Executes Passage
      { (e.generate e.generator thread).2.2 with generator := (e.generate e.generator thread).2.1 }
      (e.generate e.generator thread).1 (e.submit thread trouble).1 (e.submit thread trouble).2 :=
  executes_execute (fun _ => .refl) _ _ _

theorem passage_submit (e : Engine) (thread : UInt32) (trouble : Trouble) : Passage e (e.submit thread trouble).2 :=
  .head (.draw thread) (e.executes_submit thread trouble).passage

/-- The pages keep their size and their number, and nothing was drawn from the generator. -/
structure Conserves (e after : Engine) : Prop where
  shape : after.store.shape = e.store.shape
  generator : after.generator = e.generator

theorem Conserves.countFailure {α : Type} {r : Except Fault α × Engine} (conserves : Conserves e r.2) :
    Conserves e (countFailure r).2 := by
  obtain ⟨_ | _, after⟩ := r <;> exact ⟨conserves.shape, conserves.generator⟩

theorem conserves_apply (e : Engine) (t : Transaction) (trouble : Trouble) : Conserves e (e.apply t trouble).2 := by
  unfold Engine.apply Engine.onStore
  cases t.operation.isWrite with
  | true => exact ⟨e.store.shape_write t.page t.payload trouble, rfl⟩
  | false => exact ⟨e.store.shape_fetch t.page, rfl⟩

theorem conserves_drainRemaining (e : Engine) : Conserves e e.drainRemaining.2 := by
  unfold Engine.drainRemaining
  split
  · exact ⟨rfl, rfl⟩
  · unfold Engine.deliverLate
    split
    · exact ⟨rfl, rfl⟩
    · split <;> exact ⟨rfl, rfl⟩

/-- Nothing changes the pages, and only a draw the generator. -/
theorem Acts.conserves (acts : Acts e after) : Conserves e after ∨ ∃ thread, after =
    { (e.generate e.generator thread).2.2 with generator := (e.generate e.generator thread).2.1 } := by
  cases acts with
  | draw thread => exact .inr ⟨thread, rfl⟩
  | apply t trouble => exact .inl (e.conserves_apply t trouble)
  | read page => exact .inl (Conserves.countFailure ⟨e.store.shape_fetch page, rfl⟩)
  | write page payload trouble =>
    exact .inl (Conserves.countFailure ⟨e.store.shape_write page payload trouble, rfl⟩)
  | cycle thread trouble =>
    exact .inl ⟨Checkpoint.Checkpointer.shape_cycle _ thread e.now.2.checkpointer trouble, rfl⟩
  | stop =>
    unfold Engine.requestStop
    split <;> exact .inl ⟨rfl, rfl⟩
  | join =>
    unfold Engine.joinServices
    split <;> exact .inl ⟨rfl, rfl⟩
  | drain => exact .inl e.conserves_drainRemaining
  | _ => exact .inl ⟨rfl, rfl⟩

/-- The pages of an engine are those of its settings, and its generator was made for them. -/
structure Serving (c : Config) (e : Engine) : Prop where
  size : e.store.pageSize = c.pageSize
  pages : e.store.pageCount = c.pageCount
  drawn : e.generator.DrawnFor c

theorem Serving.acts (serving : Serving c e) (acts : Acts e after) : Serving c after := by
  rcases acts.conserves with ⟨shape, generator⟩ | ⟨thread, rfl⟩
  · obtain ⟨size, pages⟩ := Prod.mk.inj shape
    exact ⟨size.trans serving.size, pages.trans serving.pages, generator ▸ serving.drawn⟩
  · have drawn := serving.drawn.transaction e.nextTransaction thread e.sequence.allocate.1
    exact ⟨serving.size, serving.pages, drawn⟩

theorem Serving.passage (serving : Serving c e) (passage : Passage e after) : Serving c after := by
  induction passage with
  | refl => exact serving
  | tail _ acts ih => exact ih.acts acts

theorem shape_openAt {dir : Path} {cache : Cache} {counters : Counters} {v w : Volume} {t : Trouble} {s : PageStore}
    (opened : PageStore.openAt c dir cache counters v t = (.ok s, w)) : s.shape = (c.pageSize, c.pageCount) := by
  unfold PageStore.openAt at opened
  iterate 4
    split at opened
    · cases opened
  cases opened
  rfl

theorem shape_openParts {dir : Path} {v w : Volume} {parts : Parts} (opened : openParts c dir v = (.ok parts, w)) :
    parts.store.shape = (c.pageSize, c.pageCount) := by
  unfold openParts at opened
  dsimp only at opened
  split at opened
  · cases opened
  · next store v₁ first =>
    split at opened
    · cases opened
    · split at opened
      · cases opened
      · have shape := shape_openAt first
        cases opened
        exact shape

theorem serving_openWith {clock : Clock} {v w : Volume} (opened : openWith c clock v = (.ok e, w)) :
    Serving c e := by
  unfold openWith at opened
  iterate 4
    split at opened
    · cases opened
  dsimp only at opened
  split at opened
  · cases opened
  · next parts v₁ done =>
    obtain ⟨size, pages⟩ := Prod.mk.inj (shape_openParts done)
    cases opened
    exact ⟨size, pages, Generator.drawnFor_create c c.seed⟩

section Executed

open Generator Transaction

variable {t : Transaction}

theorem Serving.apply_fits (serving : Serving c e) (made : MadeFor c t) (fits : t.payload.length ≤ c.pageSize)
    {trouble : Trouble} {fault : Fault} (failed : (e.apply t trouble).1 = .error fault) :
    fault.isMisfit = false := by
  have inside : t.page < e.store.pageCount := serving.pages ▸ made.inside
  unfold Engine.apply Engine.onStore at failed
  cases kind : t.operation.isWrite with
  | true =>
    rw [kind] at failed
    exact e.store.write_fault inside (serving.size ▸ fits) failed
  | false =>
    rw [kind] at failed
    rcases fetched : (e.store.fetch t.page).1 with cause | bytes
    all_goals
      simp only [fetched] at failed
      cases failed
    exact e.store.fetch_fault inside fetched

theorem Serving.apply_large (serving : Serving c e) (made : MadeFor c t) (tagged : t.operation.isTagged = true)
    (large : c.pageSize < t.payload.length) (trouble : Trouble) :
    (e.apply t trouble).1 = .error (.payloadTooLarge t.payload.length c.pageSize) := by
  have inside : t.page < e.store.pageCount := serving.pages ▸ made.inside
  have refused := e.store.write_large inside (serving.size ▸ large) trouble
  rw [serving.size] at refused
  unfold Engine.apply Engine.onStore
  rw [Log.Operation.isWrite_of_isTagged tagged]
  exact refused

/-- No transaction is refused for its page, and it is refused for its payload exactly if it has a tag that is longer
than a page. -/
structure Answered (c : Config) (t : Transaction) (outcome : Except Fault Transaction) : Prop where
  inside : ∀ page pageCount, outcome ≠ .error (.pageOutOfRange page pageCount)
  refused : (∃ length pageSize, outcome = .error (.payloadTooLarge length pageSize)) ↔
    t.operation.isTagged = true ∧ c.pageSize < (tag t.id).length

theorem Serving.answered (serving : Serving c e) (accepted : c.validate = .ok ()) (made : MadeFor c t)
    {outcome : Except Fault Transaction} (run : Executes Passage e t outcome after) : Answered c t outcome := by
  have tagged := made.large_iff accepted
  have logged {a : Engine} (intended : Passage (e.log t t.lsn) a) : Serving c a :=
    (serving.acts (.log t t.lsn)).passage intended
  cases run with
  | @abandoned a b trouble fault intended failed applied =>
    by_cases large : c.pageSize < t.payload.length
    · have refused := (logged intended).apply_large made (tagged.mp large).1 large trouble
      cases failed.symm.trans refused
      exact ⟨nofun, fun _ => tagged.mp large, fun _ => ⟨_, _, rfl⟩⟩
    · have other := (logged intended).apply_fits made (Nat.not_lt.mp large) failed
      refine ⟨?_, ?_, fun both => absurd (tagged.mpr both) large⟩
      · rintro page pageCount same
        cases same
        cases other
      · rintro ⟨length, pageSize, same⟩
        cases same
        cases other
  | @committed a b last trouble intended done applied numbered =>
    refine ⟨nofun, nofun, fun both => ?_⟩
    have refused := (logged intended).apply_large made both.1 (tagged.mpr both) trouble
    cases done.symm.trans refused

/-- A generated transaction is for a page that the store has. What it writes fits a page unless its own tag does
not, and only then is it refused. Tags take 25 bytes at most, and some take as many. -/
theorem generated_refused_iff (accepted : c.validate = .ok ()) :
    (∀ g, DrawnFor c g → ∀ id thread lsn,
      let t := (g.transaction id thread lsn).1
      t.page < c.pageCount ∧
      t.payload.length = (if t.operation.isTagged then max c.payloadSize (tag id).length else 0) ∧
      (t.payload.length ≤ c.pageSize ↔ (t.operation.isTagged = true → (tag id).length ≤ c.pageSize))) ∧
    ((∀ g, DrawnFor c g → ∀ id thread lsn, (g.transaction id thread lsn).1.payload.length ≤ c.pageSize) ↔
      25 ≤ c.pageSize) ∧
    ∀ clock v w first e, openWith c clock v = (.ok first, w) → Passage first e →
      (∀ thread trouble, Answered c (e.generate e.generator thread).1 (e.submit thread trouble).1) ∧
      ∀ g, DrawnFor c g → ∀ id thread lsn outcome after,
        Executes Passage e (g.transaction id thread lsn).1 outcome after →
          Answered c (g.transaction id thread lsn).1 outcome := by
  refine ⟨fun g drawn id thread lsn => ?_, all_fit_iff accepted, fun clock v w first e opened passage => ?_⟩
  · have made := drawn.made accepted id thread lsn
    exact ⟨made.inside, made.length, made.fits_iff accepted⟩
  · have serving := (serving_openWith opened).passage passage
    constructor
    · intro thread trouble
      have made := serving.drawn.made accepted e.nextTransaction thread e.sequence.allocate.1
      exact (serving.acts (.draw thread)).answered accepted made (e.executes_submit thread trouble)
    · intro g drawn id thread lsn outcome after run
      exact serving.answered accepted (drawn.made accepted id thread lsn) run

/-- One page, of this size. -/
def pageOf (pageSize : Nat) : Config :=
  { dataDir := "data", pageSize, pageCount := 1, payloadSize := 4, seed := some 1 }

/-- On pages of six bytes the first insert goes through, and the next one may, but later ones have longer tags. -/
theorem generated_refused_iff_six : ∃ (e next : Engine) (opening : Volume),
    openWith (pageOf 6) (.still 5) .empty = (.ok e, opening) ∧ (e.submit 0).1.isOk = true ∧
      next = (e.submit 0).2 ∧ Answered (pageOf 6) (next.generate next.generator 0).1 (next.submit 0).1 ∧
      (next.generate next.generator 0).1.operation.isTagged = true ∧
      ∃ g, DrawnFor (pageOf 6) g ∧ ∃ id thread lsn, 6 < (g.transaction id thread lsn).1.payload.length := by
  have computed : ((openWith (pageOf 6) (.still 5) .empty).1.map fun e =>
      let next := (e.submit 0).2
      ((e.submit 0).1.isOk, (next.generate next.generator 0).1.operation.isTagged)).toOption =
        some (true, true) := by
    decide +kernel
  obtain ⟨-, all, answers⟩ := generated_refused_iff (c := pageOf 6) rfl
  rcases opened : openWith (pageOf 6) (.still 5) .empty with ⟨fault | e, opening⟩
  all_goals rw [opened] at computed
  · cases computed
  · obtain ⟨done, tagged⟩ := Prod.mk.inj (Option.some.inj computed)
    refine ⟨e, _, opening, rfl, done, rfl, ?_, tagged, ?_⟩
    · exact (answers _ _ _ e _ opened (e.passage_submit 0 .none)).1 0 .none
    · by_contra none
      push Not at none
      exact absurd (all.mp none) (by decide)

/-- What the first insert writes does not fit a page of four bytes. -/
theorem generated_larger_than_page : ∃ (e : Engine) (opening : Volume), (pageOf 4).validate = .ok () ∧
    openWith (pageOf 4) (.still 5) .empty = (.ok e, opening) ∧
      (e.generate e.generator 0).1.payload.length = 6 ∧ (e.submit 0).1 = .error (.payloadTooLarge 6 4) := by
  have computed : ((openWith (pageOf 4) (.still 5) .empty).1.map fun e =>
      ((e.generate e.generator 0).1.payload.length, (e.submit 0).1)).toOption =
        some (6, .error (.payloadTooLarge 6 4)) := by
    decide +kernel
  rcases opened : openWith (pageOf 4) (.still 5) .empty with ⟨fault | e, opening⟩
  all_goals rw [opened] at computed
  · cases computed
  · obtain ⟨length, refused⟩ := Prod.mk.inj (Option.some.inj computed)
    exact ⟨e, opening, rfl, rfl, length, refused⟩

end Executed

end Engine

end PageJournal
