import PageJournal.Proofs.Engine.Crash
import PageJournal.Proofs.Engine.Fitting
import PageJournal.Proofs.Engine.Lasting
import PageJournal.Proofs.Transaction.Tag

/-! Deleting a page. A delete writes the payload that its transaction carries, as an insert does. So what it leaves is
the payload and its padding, until the page is written again, and the page is erased only if the payload holds
nothing but zero bytes. -/
namespace PageJournal

open Transaction (ofTag? ofTag?_padded)

namespace PageStore

/-- Each way to look at a page gives these bytes. -/
structure Answers (page : PageId) (bytes : Bytes) (s : PageStore) : Prop where
  read : (s.read page).1 = .ok bytes
  fetch : (s.fetch page).1 = .ok bytes
  inspected : (s.page page).1.map (·.bytes) = .ok bytes

/-- The page is all zero bytes and names no transaction. -/
structure Erased (page : PageId) (s : PageStore) : Prop where
  zeros : s.Answers page (List.replicate s.pageSize 0)
  untagged : ∀ bytes, (s.read page).1 = .ok bytes → ofTag? bytes = none

variable {s : PageStore} {page : PageId}

theorem Answers.erased_iff {payload : Bytes} (answers : s.Answers page (padded s.pageSize payload))
    (fits : payload.length ≤ s.pageSize) : s.Erased page ↔ ∀ b ∈ payload, b = 0 := by
  rw [← padded_eq_zeros_iff fits]
  constructor
  · intro erased
    exact Except.ok.inj (answers.read.symm.trans erased.zeros.read)
  · intro same
    rw [same] at answers
    refine ⟨answers, fun bytes read => ?_⟩
    cases read.symm.trans answers.read
    exact ofTag?_padded s.pageSize []

end PageStore

namespace Engine

open Volume PageStore Checkpoint Checkpointer

variable {spared : PageId → Prop} {home : Path} {e after last : Engine} {page : PageId} {payload : Bytes}
  {trouble : Trouble} {t : Transaction}

theorem Coherent.answers (coherent : e.Coherent home) (inside : page < e.store.pageCount) {bytes : Bytes}
    (there : e.store.readFile page = .ok bytes) : e.store.Answers page bytes := by
  have shows := coherent.tends.shows
  have read : (e.store.table (home.child pagesName)).read page = .ok bytes :=
    (if_neg (UInt32.not_le.mpr inside)).trans there
  have inspected : (e.store.page page).1 = (e.store.table (home.child pagesName)).page page := (shows.page page).1
  refine ⟨(shows.read page).1.trans read, (shows.fetch page).1.trans read, ?_⟩
  rw [inspected, Table.page, read]
  rfl

/-- A write that went through leaves its payload on the page until somebody else writes there. -/
theorem Coherent.stored (coherent : e.Coherent home) (done : (e.store.write page payload trouble).1 = .ok ())
    (later : Elapses (· = page) (e.serve (.write page payload trouble)) last) :
    last.store.Answers page (padded last.store.pageSize payload) ∧ payload.length ≤ last.store.pageSize := by
  have inside : page < e.store.pageCount ∧ payload.length ≤ e.store.pageSize := by
    rcases prepared : e.store.prepare page payload with fault | made
    · rw [PageStore.write, prepared] at done
      cases done
    · obtain ⟨inside, fits, -⟩ := prepare_eq_ok prepared
      exact ⟨inside, fits⟩
  have written : Lasts (fun _ => False) home e (e.serve (.write page payload trouble)) :=
    coherent.serve _ fun _ => False.elim
  have brought : e.brought? (.write page payload trouble) page = some payload := by
    have answer : (e.checkpointer.act (.write page payload trouble)).1 = .written (.ok ()) :=
      congrArg Answer.written done
    rw [brought?, answer]
    exact if_pos rfl
  have holds := coherent.served (.write page payload trouble) page
  rw [brought] at holds
  have lasts := written.coherent.elapses later
  have size : last.store.pageSize = e.store.pageSize := lasts.size.trans written.size
  have pages : e.store.pageCount ≤ last.store.pageCount := UInt32.le_trans written.pages lasts.pages
  rw [size]
  exact ⟨lasts.coherent.answers (UInt32.lt_of_lt_of_le inside.1 pages) (lasts.bytes page rfl _ holds), inside.2⟩

/-- An operation that writes is a write of the payload, whichever it is. -/
theorem apply_of_isWrite (write : t.operation.isWrite = true) (e : Engine) (trouble : Trouble) :
    e.apply t trouble =
      ((e.store.write t.page t.payload trouble).1, e.serve (.write t.page t.payload trouble)) := by
  unfold Engine.apply Engine.onStore
  rw [write]
  rfl

/-- Behind its operation a transaction only takes a number, adds a record and is counted. -/
theorem execute_cases (e : Engine) (t : Transaction) (trouble : Trouble) {done : Transaction}
    (executed : (e.execute t trouble).1 = .ok done) : Happens spared e (e.log t t.lsn) ∧
      ((e.log t t.lsn).apply t trouble).1 = .ok () ∧
      Happens spared ((e.log t t.lsn).apply t trouble).2 (e.execute t trouble).2 := by
  refine ⟨.aside e.store.counters ⟨rfl, rfl, rfl, rfl, rfl⟩ rfl, ?_⟩
  unfold Engine.execute at executed ⊢
  rcases applied : (e.log t t.lsn).apply t trouble with ⟨fault | ⟨⟩, a⟩
  · rw [applied] at executed
    cases executed
  · exact ⟨rfl, .aside _ ⟨rfl, rfl, rfl, rfl, rfl⟩ rfl⟩

theorem elapses_checkpoint (e : Engine) (thread : UInt32) (trouble : PageId → Trouble) :
    Elapses spared e (e.checkpoint thread trouble).2 := by
  have begun : Happens spared e e.now.2 := .aside e.store.counters ⟨rfl, rfl, rfl, rfl, rfl⟩ rfl
  have cycled : Happens spared e.now.2 (e.cycle thread trouble).2 :=
    .serve (.cycle e.now.1 thread trouble) fun _ _ => rfl
  have there := (Relation.ReflTransGen.single begun).tail cycled
  unfold Engine.checkpoint
  rcases result : e.cycle thread trouble with ⟨fault | report, a⟩
  all_goals rw [result] at there
  · exact there.tail (.aside _ ⟨rfl, rfl, rfl, rfl, rfl⟩ rfl)
  · exact there

theorem elapses_close (e : Engine) : Elapses spared e e.close.2 := by
  have asked : Happens spared e e.requestStop := by
    refine .aside e.store.counters ?_ (requestStop_store e)
    unfold Engine.requestStop
    split <;> exact ⟨rfl, rfl, rfl, rfl, rfl⟩
  have drained := ((Relation.ReflTransGen.single asked).tail .join).tail .drain
  unfold Engine.close
  dsimp only
  rcases result : e.requestStop.joinServices.drainRemaining with ⟨fault | n, a⟩
  all_goals rw [result] at drained
  · exact drained
  · have flushed := drained.tail .flush
    dsimp only
    split
    · have noted : Happens spared a.flushEvents (a.flushEvents.note "engine" "closed") :=
        .aside a.flushEvents.store.counters ⟨rfl, rfl, rfl, rfl, rfl⟩ rfl
      exact (flushed.tail noted).tail .flush
    · exact flushed

/-- What a transaction that writes leaves on its page. -/
structure Leaves (t : Transaction) (e : Engine) : Prop where
  shown : e.store.Answers t.page (padded e.store.pageSize t.payload)
  named : ofTag? (padded e.store.pageSize t.payload) = ofTag? t.payload
  erased : e.store.Erased t.page ↔ ∀ b ∈ t.payload, b = 0

theorem Coherent.leaves (coherent : e.Coherent home) (write : t.operation.isWrite = true)
    (applied : (e.apply t trouble).1 = .ok ()) (later : Elapses (· = t.page) (e.apply t trouble).2 last) :
    Leaves t last := by
  rw [apply_of_isWrite write] at applied later
  obtain ⟨answers, fits⟩ := coherent.stored applied later
  exact ⟨answers, ofTag?_padded _ _, answers.erased_iff fits⟩

/-- A delete that goes through leaves the payload of its transaction on the page, until the next write that goes
through, whatever else is done, checkpointed, closed and opened again. So the page is erased if and only if the
payload has no bytes but zero bytes. -/
theorem deleted_erased_iff {c : Config} {clock : Clock} {v made opening : Volume} {dir home : Path} {first e : Engine}
    (directory : makeDirectory c v = .ok (dir, made)) (site : Site dir home made)
    (opened : openWith c clock v = (.ok first, opening)) (earlier : Elapses (fun _ => False) first e)
    {t : Transaction} (deletes : t.operation = .delete) (trouble : Trouble) :
    ((e.apply t trouble).1 = .ok () →
      ∀ last, Elapses (· = t.page) (e.apply t trouble).2 last → Leaves t last) ∧
    ∀ done, (e.execute t trouble).1 = .ok done →
      ∀ last, Elapses (· = t.page) (e.execute t trouble).2 last → Leaves t last := by
  have coherent := ((coherent_openWith directory site opened).elapses earlier).coherent
  have write : t.operation.isWrite = true := by rw [deletes]; rfl
  refine ⟨fun applied last later => coherent.leaves write applied later, fun done executed last later => ?_⟩
  obtain ⟨logged, applied, behind⟩ := execute_cases e t trouble executed
  exact (coherent.happens logged).coherent.leaves write applied (.head behind later)

/-- A transaction that deletes the first page with this payload, from its beginning to its end. -/
def deleted (e : Engine) (payload : Bytes) : Except Fault Transaction × Engine :=
  (e.begin 0 .delete 0 payload).2.execute (e.begin 0 .delete 0 payload).1

/-- A page that was deleted with one byte has it still when it was checkpointed, and the engine closed and opened
again; a page that was deleted with a zero byte is erased. -/
theorem deleted_erased_iff_reopened : ∃ (made opening reopening : Volume) (first closed last : Engine),
    makeDirectory Session.onePage .empty = .ok (["data"], made) ∧ Site ["data"] ["data"] made ∧
      openWith Session.onePage (.still 5) .empty = (.ok first, opening) ∧
      closed = ((first.deleted [7]).2.checkpoint 0).2.close.2 ∧
      openWith Session.onePage (.still 6) closed.store.disk = (.ok last, reopening) ∧
      (last.store.read 0).1 = .ok [7, 0, 0, 0, 0, 0, 0, 0] ∧ ¬ last.store.Erased 0 ∧
      (first.deleted [0]).2.store.Erased 0 := by
  have computed : ((openWith Session.onePage (.still 5) .empty).1.map fun first =>
      let closed := ((first.deleted [7]).2.checkpoint 0).2.close.2
      ((first.deleted [7]).1.isOk, (first.deleted [0]).1.isOk, closed.dir, closed.store.pageSize,
        closed.store.pageCount, (openWith Session.onePage (.still 6) closed.store.disk).1.isOk)).toOption =
          some (true, true, ["data"], 8, 1, true) := by
    decide +kernel
  have directory : makeDirectory Session.onePage .empty =
      .ok (["data"], Volume.empty.put ["data"] .directory) := by
    rfl
  rcases opened : openWith Session.onePage (.still 5) .empty with ⟨fault | first, opening⟩
  all_goals rw [opened] at computed
  · cases computed
  · have parts := Option.some.inj computed
    simp only [Prod.mk.injEq] at parts
    obtain ⟨seven, zero, parts⟩ := parts
    generalize shut : ((first.deleted [7]).2.checkpoint 0).2.close.2 = closed at parts
    obtain ⟨place, size, pages, opens⟩ := parts
    have leaves : ∀ payload done, (first.deleted payload).1 = .ok done → ∀ last,
        Elapses (· = 0) (first.deleted payload).2 last → Leaves (first.begin 0 .delete 0 payload).1 last := by
      intro payload
      have begun : Elapses (fun _ => False) first (first.begin 0 .delete 0 payload).2 :=
        .single (.aside first.store.counters ⟨rfl, rfl, rfl, rfl, rfl⟩ rfl)
      exact (deleted_erased_iff directory Volume.site_data opened begun rfl .none).2
    rcases done : (first.deleted [7]).1 with fault | t
    · rw [done] at seven
      cases seven
    rcases gone : (first.deleted [0]).1 with fault | t₀
    · rw [gone] at zero
      cases zero
    rcases again : openWith Session.onePage (.still 6) closed.store.disk with ⟨fault | last, reopening⟩
    all_goals rw [again] at opens
    · cases opens
    have later : Elapses (· = 0) (first.deleted [7]).2 last := by
      have shutting : Elapses (· = 0) (first.deleted [7]).2 closed :=
        shut ▸ (elapses_checkpoint _ 0 _).trans (elapses_close _)
      refine shutting.tail (.reopen ?_ size.symm (UInt32.le_of_eq pages) again)
      rw [place]
      rfl
    have kept := leaves [7] t done last later
    have erased := (leaves [0] t₀ gone _ .refl).erased
    have width : last.store.pageSize = 8 := (serving_openWith again).size
    have read := kept.shown.read
    rw [width] at read
    exact ⟨_, opening, reopening, first, closed, last, directory, Volume.site_data, rfl, shut.symm, again, read,
      fun erased => absurd (kept.erased.mp erased 7 List.mem_cons_self) (by decide),
      erased.mpr fun b mem => List.mem_singleton.mp mem⟩

/-- A page that was deleted with a tag names that transaction. -/
theorem deleted_page_named : ∃ (opening : Volume) (first : Engine),
    openWith Session.onePage (.still 5) .empty = (.ok first, opening) ∧
      (first.deleted (Transaction.tag 7)).1.isOk = true ∧
      (∃ bytes, ((first.deleted (Transaction.tag 7)).2.store.read 0).1 = .ok bytes ∧ ofTag? bytes = some 7) ∧
      ¬ (first.deleted (Transaction.tag 7)).2.store.Erased 0 := by
  have computed : ((openWith Session.onePage (.still 5) .empty).1.map fun first =>
      ((first.deleted (Transaction.tag 7)).1.isOk,
        ((first.deleted (Transaction.tag 7)).2.store.read 0).1.toOption)).toOption =
          some (true, some (Transaction.tag 7 ++ [0, 0])) := by
    decide +kernel
  rcases opened : openWith Session.onePage (.still 5) .empty with ⟨fault | first, opening⟩
  all_goals rw [opened] at computed
  · cases computed
  · obtain ⟨done, shown⟩ := Prod.mk.inj (Option.some.inj computed)
    rcases read : ((first.deleted (Transaction.tag 7)).2.store.read 0).1 with fault | bytes
    all_goals rw [read] at shown
    · cases shown
    · have named : ofTag? bytes = some 7 := by
        rw [show bytes = Transaction.tag 7 ++ [0, 0] from Option.some.inj shown]
        exact Transaction.ofTag?_tag 7 [0, 0]
      refine ⟨opening, first, rfl, done, ⟨bytes, read, named⟩, fun erased => ?_⟩
      cases named.symm.trans (erased.untagged bytes read)

end Engine

end PageJournal
