import PageJournal.Proofs.Engine.Ledger
import PageJournal.Proofs.Engine.Site

/-! The log of an engine tells what its pages hold. Transactions are begun in any order and executed one after
another, and the last committed record of a write to a page names the transaction whose payload is there. -/
namespace PageJournal

open Log

namespace Engine

open Volume PageStore

/-- The transactions that were executed, and what became of them, in the order of their ends. -/
abbrev Outcomes := List (Transaction × Except Fault Transaction)

/-- From its opening, transactions were begun on an engine, and some of them were executed one after another, each
at most once. Meanwhile pages are read and the services act. -/
inductive Course (e : Engine) : List Transaction → Outcomes → Engine → Prop
  | opened : Course e [] [] e
  | begin {begun : List Transaction} {ended : Outcomes} {mid : Engine} (course : Course e begun ended mid)
      (thread : UInt32) (operation : Operation) (page : PageId) (payload : Bytes) :
    Course e (begun ++ [(mid.begin thread operation page payload).1]) ended
      (mid.begin thread operation page payload).2
  | generate {begun : List Transaction} {ended : Outcomes} {mid : Engine} (course : Course e begun ended mid)
      (g kept : Generator) (thread : UInt32) :
    Course e (begun ++ [(mid.generate g thread).1]) ended { (mid.generate g thread).2.2 with generator := kept }
  | execute {begun : List Transaction} {ended : Outcomes} {mid after : Engine} (course : Course e begun ended mid)
      {t : Transaction} (known : t ∈ begun) (first : t ∉ ended.map Prod.fst)
      {outcome : Except Fault Transaction} (run : Executes Services mid t outcome after) :
    Course e begun (ended ++ [(t, outcome)]) after
  | read {begun : List Transaction} {ended : Outcomes} {mid : Engine} (course : Course e begun ended mid)
      (page : PageId) : Course e begun ended (mid.read page).2
  | serve {begun : List Transaction} {ended : Outcomes} {mid after : Engine} (course : Course e begun ended mid)
      (serves : Serves mid after) : Course e begun ended after

variable {home : Path} {old : Bytes} {size : Nat} {pageCount : PageId} {stages : List Stage}
  {added : List Record} {begun : List Transaction} {ended : Outcomes} {e after : Engine}

/-- The transactions that ended well, in the order of their ends. -/
def fulfilled (ended : Outcomes) : List Transaction :=
  ended.filterMap fun d => if d.2.isOk then some d.1 else none

/-- The pages behind these transactions, which were empty at first. -/
def pagesBy (size : Nat) (ts : List Transaction) : PageId → Bytes :=
  ts.foldl (fun contents t => written size t contents) fun _ => List.replicate size 0

theorem pagesBy_concat (size : Nat) (ts : List Transaction) (t : Transaction) :
    pagesBy size (ts ++ [t]) = written size t (pagesBy size ts) := by
  simp [pagesBy]

/-- A page holds what was written to it last. -/
theorem pagesBy_eq (size : Nat) (ts : List Transaction) (page : PageId) :
    pagesBy size ts page = match (ts.filter (·.fact.writes page)).getLast? with
      | none => List.replicate size 0
      | some t => padded size t.payload := by
  -- from the end: the last transaction wrote the page, or those before it decide
  induction ts using List.reverseRecOn with
  | nil => rfl
  | append_singleton ts t ih =>
    rw [pagesBy_concat, List.filter_append]
    unfold written
    cases kind : t.operation.isWrite with
    | false => simpa [Transaction.fact, Fact.writes, kind] using ih
    | true =>
      by_cases own : page = t.page
      · subst own
        simp [Transaction.fact, Fact.writes, kind]
      · simpa [Transaction.fact, Fact.writes, kind, own, Ne.symm own] using ih

theorem fulfilled_concat (ended : Outcomes) (t : Transaction) (outcome : Except Fault Transaction) :
    fulfilled (ended ++ [(t, outcome)]) = fulfilled ended ++ if outcome.isOk then [t] else [] := by
  rw [fulfilled, List.filterMap_append]
  cases outcome <;> rfl

/-- Where a course has come. -/
structure Chronicle (home : Path) (old : Bytes) (size : Nat) (pageCount : PageId) (begun : List Transaction)
    (ended : Outcomes) (stages : List Stage) (added : List Record) (e : Engine) : Prop where
  ledger : e.Ledger home old size pageCount stages added (pagesBy size (fulfilled ended))
  length : stages.length = begun.length
  waiting : ∀ (i : Nat) (t : Transaction), begun[i]? = some t → t ∉ ended.map Prod.fst →
    stages[i]? = some (.begun t)
  ids : ∀ (i : Nat) (t : Transaction), begun[i]? = some t → t.id = (Session.marks old).idAt i
  told : (added.filter Record.committed).map Record.fact = (fulfilled ended).map Transaction.fact

theorem Chronicle.begin (chronicle : e.Chronicle home old size pageCount begun ended stages added)
    (room : (Session.marks old).Room (begun.length + 1)) (thread : UInt32) (operation : Operation)
    (page : PageId) (payload : Bytes) :
    (e.begin thread operation page payload).2.Chronicle home old size pageCount
      (begun ++ [(e.begin thread operation page payload).1]) ended
      (stages ++ [.begun (e.begin thread operation page payload).1]) added where
  ledger := chronicle.ledger.begin (chronicle.length.symm ▸ room) thread operation page payload
  length := by simp [chronicle.length]
  waiting i t there free := by
    rcases getElem?_concat_cases there with ⟨rfl, rfl⟩ | there
    · exact chronicle.length ▸ List.getElem?_concat_length ..
    · have stage := chronicle.waiting i t there free
      exact (List.getElem?_append_left (List.getElem?_eq_some_iff.mp stage).1).trans stage
  ids i t there := by
    rcases getElem?_concat_cases there with ⟨rfl, rfl⟩ | there
    · exact chronicle.length ▸ chronicle.ledger.id thread operation page payload
    · exact chronicle.ids i t there
  told := chronicle.told

theorem Chronicle.execute (chronicle : e.Chronicle home old size pageCount begun ended stages added)
    (room : (Session.marks old).Room begun.length) {t : Transaction} (known : t ∈ begun)
    (first : t ∉ ended.map Prod.fst) {outcome : Except Fault Transaction}
    (run : Executes Services e t outcome after) :
    ∃ stages added, after.Chronicle home old size pageCount begun (ended ++ [(t, outcome)]) stages added := by
  obtain ⟨i, there⟩ := List.getElem?_of_mem known
  have stage := chronicle.waiting i t there first
  obtain ⟨more, ledger, facts⟩ := chronicle.ledger.execute (chronicle.length.symm ▸ room) stage run
  refine ⟨stages.set i .ended, added ++ more, ?_, ?_, ?_, chronicle.ids, ?_⟩
  · rw [fulfilled_concat]
    cases outcome with
    | error fault => exact (List.append_nil (fulfilled ended)).symm ▸ ledger
    | ok committed => exact (pagesBy_concat size (fulfilled ended) t).symm ▸ ledger
  · rw [List.length_set, chronicle.length]
  · intro i' t' there' free
    rw [List.map_append, List.mem_append, not_or] at free
    -- a transaction that still waits is not this one, so its stage stays
    have other : i ≠ i' := by
      rintro rfl
      cases there.symm.trans there'
      exact free.2 (List.mem_singleton_self t)
    rw [List.getElem?_set_ne other]
    exact chronicle.waiting i' t' there' free.1
  · rw [List.filter_append, List.map_append, chronicle.told, facts, fulfilled_concat, List.map_append]
    cases outcome <;> rfl

theorem Begins.chronicle {c : Config} {dir : Path} {marks : Bytes} (begins : Begins c dir old e)
    (settled : e.Settled home old marks)
    (formatted : ∀ page < c.pageCount,
      e.store.disk.read (e.store.file page : Path) = .ok (List.replicate c.pageSize 0)) :
    e.Chronicle home old c.pageSize c.pageCount [] [] [] [] where
  ledger := by
    have size : e.store.pageSize = c.pageSize := by rw [begins.store]
    have count : e.store.pageCount = c.pageCount := by rw [begins.store]
    have agrees : e.store.cache.Agrees e.store.readFile := by
      have cache : e.store.cache = .create c.cacheCapacity c.cachePolicy := by rw [begins.store]
      exact cache ▸ Cache.agrees_create _ _ _
    refine ⟨begins.running, ⟨[], marks, begins.waiting, by simpa using settled⟩,
      ⟨_, shows_table settled.orderly agrees, size, count, fun page inside => ?_⟩, _,
      Session.numbered_behind begins.sequence begins.transaction⟩
    exact readFile_eq_ok.mpr ⟨formatted page inside, List.length_replicate.trans size.symm⟩
  length := rfl
  waiting := nofun
  ids := nofun
  told := rfl

theorem Chronicle.course {first : Engine} (chronicle : first.Chronicle home old size pageCount [] [] [] [])
    (course : Course first begun ended e) (room : (Session.marks old).Room begun.length) :
    ∃ stages added, e.Chronicle home old size pageCount begun ended stages added := by
  induction course with
  | opened => exact ⟨[], [], chronicle⟩
  | begin course thread operation page payload ih =>
    rw [List.length_append] at room
    obtain ⟨stages, added, chronicle⟩ := ih (room.mono (Nat.le_succ _))
    exact ⟨_, added, chronicle.begin room thread operation page payload⟩
  | @generate _ _ mid course g kept thread ih =>
    rw [List.length_append] at room
    obtain ⟨stages, added, chronicle⟩ := ih (room.mono (Nat.le_succ _))
    obtain ⟨operation, page, payload, same, after⟩ := generate_eq_begin mid g thread
    rw [same, after]
    have begun := chronicle.begin room thread operation page payload
    obtain ⟨j, numbered⟩ := begun.ledger.numbered
    have ledger := begun.ledger.aside { (mid.begin thread operation page payload).2 with generator := kept }
      ⟨rfl, rfl, rfl, rfl, rfl⟩ rfl rfl rfl ⟨j, numbered.same rfl rfl rfl rfl⟩
    exact ⟨_, added, { begun with ledger }⟩
  | execute course known first run ih =>
    obtain ⟨stages, added, chronicle⟩ := ih room
    exact chronicle.execute room known first run
  | read course page ih =>
    obtain ⟨stages, added, chronicle⟩ := ih room
    exact ⟨stages, added, { chronicle with ledger := chronicle.ledger.read page }⟩
  | serve course serves ih =>
    obtain ⟨stages, added, chronicle⟩ := ih room
    exact ⟨stages, added, { chronicle with ledger := chronicle.ledger.serves serves }⟩

theorem Course.once {first : Engine} (course : Course first begun ended e) :
    (ended.map Prod.fst).Nodup ∧ ∀ d ∈ ended, d.1 ∈ begun := by
  induction course with
  | opened => exact ⟨List.nodup_nil, nofun⟩
  | begin course thread operation page payload ih =>
    exact ⟨ih.1, fun d mem => List.mem_append_left _ (ih.2 d mem)⟩
  | generate course g kept thread ih =>
    exact ⟨ih.1, fun d mem => List.mem_append_left _ (ih.2 d mem)⟩
  | @execute _ ended _ _ course t known first outcome run ih =>
    refine ⟨?_, fun d mem => ?_⟩
    · rw [List.map_append]
      exact List.nodup_append.mpr ⟨ih.1, List.nodup_singleton _, fun a mem b own => by
        rw [List.mem_singleton.mp own]
        rintro rfl
        exact first mem⟩
    · rcases List.mem_append.mp mem with before | last
      · exact ih.2 d before
      · rw [List.mem_singleton.mp last]
        exact known
  | read course page ih => exact ih
  | serve course serves ih => exact ih

theorem Chronicle.id_inj (chronicle : e.Chronicle home old size pageCount begun ended stages added)
    (room : (Session.marks old).Room begun.length) {t other : Transaction} (known : t ∈ begun)
    (also : other ∈ begun) (same : t.id = other.id) : t = other := by
  obtain ⟨i, there⟩ := List.getElem?_of_mem known
  obtain ⟨i', there'⟩ := List.getElem?_of_mem also
  have inside := (List.getElem?_eq_some_iff.mp there).1
  have inside' := (List.getElem?_eq_some_iff.mp there').1
  rw [chronicle.ids i t there, chronicle.ids i' other there'] at same
  obtain rfl := Marks.idAt_inj room inside inside' same
  exact Option.some.inj (there.symm.trans there')

theorem Chronicle.above (chronicle : e.Chronicle home old size pageCount begun ended stages added)
    (room : (Session.marks old).Room begun.length) {t : Transaction} (known : t ∈ begun) :
    (recover old).2.lastTransaction < t.id := by
  obtain ⟨i, there⟩ := List.getElem?_of_mem known
  have inside := (List.getElem?_eq_some_iff.mp there).1
  rw [UInt64.lt_iff_toNat_lt, chronicle.ids i t there, Marks.toNat_idAt room inside]
  exact Nat.lt_succ_of_le (Nat.le_add_right _ _)

theorem mem_fulfilled {t : Transaction} :
    t ∈ fulfilled ended ↔ ∃ committed, (t, .ok committed) ∈ ended := by
  simp only [fulfilled, List.mem_filterMap]
  constructor
  · rintro ⟨⟨own, fault | committed⟩, mem, done⟩
    · cases done
    · cases done
      exact ⟨committed, mem⟩
  · rintro ⟨committed, mem⟩
    exact ⟨_, mem, rfl⟩

/-- A committed record of a write to this page. -/
def tellsOf (page : PageId) (r : Record) : Bool := r.committed && (r.operation.isWrite && r.page == page)

/-- The last record that tells of a write to a page names the last transaction that wrote it. -/
theorem Chronicle.last (chronicle : e.Chronicle home old size pageCount begun ended stages added)
    (page : PageId) : (added.filter (tellsOf page)).getLast?.map Record.fact =
      ((fulfilled ended).filter (·.fact.writes page)).getLast?.map Transaction.fact := by
  have last := congrArg (fun facts => (facts.filter (Fact.writes page)).getLast?) chronicle.told
  simp only [List.filter_map, List.getLast?_map, List.filter_filter] at last
  have same : added.filter (tellsOf page) =
      added.filter fun r => (Fact.writes page ∘ Record.fact) r && r.committed :=
    List.filter_congr fun r _ => Bool.and_comm _ _
  rw [same]
  exact last

/-- What a page holds, by the last record that tells of it: the payload of the transaction that the record names,
which is one that ended well, or else nothing. -/
def Explains (size : Nat) (begun : List Transaction) (ended : Outcomes)
    (content : Bytes) : Option Record → Prop
  | none => content = List.replicate size 0
  | some r => ∃ t ∈ begun, t.id = r.transaction ∧ (∀ other ∈ begun, other.id = r.transaction → other = t) ∧
      (∃ committed, (t, .ok committed) ∈ ended) ∧ r.size = UInt64.ofNat t.payload.length ∧
      content = padded size t.payload

theorem Chronicle.explains {first : Engine}
    (chronicle : e.Chronicle home old size pageCount begun ended stages added)
    (course : Course first begun ended e) (room : (Session.marks old).Room begun.length) (page : PageId) :
    Explains size begun ended (pagesBy size (fulfilled ended) page) (added.filter (tellsOf page)).getLast? := by
  have told := chronicle.last page
  rw [pagesBy_eq]
  rcases wrote : ((fulfilled ended).filter (·.fact.writes page)).getLast? with _ | t
  all_goals rw [wrote] at told ⊢
  · rw [Option.map_eq_none_iff.mp told]
    rfl
  · obtain ⟨r, there, same⟩ := Option.map_eq_some_iff.mp told
    obtain ⟨committed, mem⟩ := mem_fulfilled.mp (List.mem_filter.mp (List.mem_of_getLast? wrote)).1
    have known := course.once.2 _ mem
    have named : r.transaction = t.id := congrArg Fact.transaction same
    rw [there]
    exact ⟨t, known, named.symm, fun other also own => chronicle.id_inj room also known (own.trans named),
      ⟨committed, mem⟩, congrArg Fact.size same, rfl⟩

theorem Chronicle.abandoned {first : Engine}
    (chronicle : e.Chronicle home old size pageCount begun ended stages added)
    (course : Course first begun ended e) (room : (Session.marks old).Room begun.length) {t : Transaction}
    {fault : Fault} (failed : (t, .error fault) ∈ ended) {r : Record} (mem : r ∈ added)
    (own : r.transaction = t.id) : r.committed = false := by
  -- a committed record tells of a transaction that ended well, and with this id there is only the abandoned one
  by_contra committed
  obtain ⟨once, begun⟩ := course.once
  have told : r.fact ∈ (fulfilled ended).map Transaction.fact := by
    rw [← chronicle.told]
    exact List.mem_map_of_mem (List.mem_filter.mpr ⟨mem, by simpa using committed⟩)
  obtain ⟨other, done, same⟩ := List.mem_map.mp told
  obtain ⟨finished, ok⟩ := mem_fulfilled.mp done
  have named : other.id = r.transaction := congrArg Fact.transaction same
  obtain rfl := chronicle.id_inj room (begun _ ok) (begun _ failed) (named.trans own)
  cases List.inj_on_of_nodup_map once ok failed rfl

/-- Once the engine is closed, the last committed record of a write to a page explains what the page holds, and
no committed record names a transaction that was abandoned. The pages are zero at first, the old log tells of no
write and its last line has its end, and the numbers must not come to the end of their words. -/
theorem log_tells_pages {c : Config} {clock : Clock} {v made opening : Volume} {dir home : Path} {e last : Engine}
    (directory : makeDirectory c v = .ok (dir, made)) (site : Site dir home made)
    (opened : openWith c clock v = (.ok e, opening))
    (formatted : ∀ page < c.pageCount,
      e.store.disk.read (e.store.file page : Path) = .ok (List.replicate c.pageSize 0))
    (whole : Closed (made.contents (home.child logName)))
    (unwritten : ∀ page, ∀ r ∈ recovered (made.contents (home.child logName)), tellsOf page r = false)
    (course : Course e begun ended last)
    (room : (Session.marks (made.contents (home.child logName))).Room begun.length) :
    ∃ closed bytes, last.close = (.ok (), closed) ∧
      closed.store.disk.read (closed.logPath : Path) = .ok bytes ∧
      (∀ page < c.pageCount, ∃ content, closed.store.disk.read (closed.store.file page : Path) = .ok content ∧
        (closed.store.fetch page).1 = .ok content ∧
        Explains c.pageSize begun ended content ((recovered bytes).filter (tellsOf page)).getLast?) ∧
      ∀ t fault, (t, .error fault) ∈ ended →
        ∀ r ∈ recovered bytes, r.transaction = t.id → r.committed = false := by
  obtain ⟨settled, begins⟩ := settled_openWith directory site opened
  generalize made.contents (home.child logName) = old at *
  obtain ⟨stages, added, chronicle⟩ := (begins.chronicle settled formatted).course course room
  obtain ⟨done, marks, all, settled⟩ := chronicle.ledger.logged
  obtain ⟨closed, closes, drains, settled⟩ := settled.close chronicle.ledger.running
  obtain ⟨j, numbered⟩ := chronicle.ledger.numbered
  have follows : Follows old added := numbered.follows (chronicle.length.symm ▸ room)
  have read := settled.read.1
  rw [List.append_assoc, ← List.flatMap_append, all] at read
  have records := (continues_closed whole follows).records
  have pages := chronicle.ledger.pages.attends drains.toAttends settled
  refine ⟨closed, _, closes, read, fun page inside => ?_, fun t fault failed r mem own => ?_⟩
  · obtain ⟨file, cached⟩ := pages.answers inside
    have before : (recovered old).filter (tellsOf page) = [] :=
      List.filter_eq_nil_iff.mpr fun r mem => by simp [unwritten page r mem]
    rw [records, List.filter_append, before, List.nil_append]
    exact ⟨_, file, cached, chronicle.explains course room page⟩
  · rw [records] at mem
    -- the ids in the old log are below every id that was given since
    rcases List.mem_append.mp mem with earlier | new
    · have low := le_lastTransaction earlier
      rw [own] at low
      exact absurd low (UInt64.not_le.mpr (chronicle.above room (course.once.2 _ failed)))
    · exact chronicle.abandoned course room failed new own

/-- Two transactions are begun, and the second is abandoned before the first is executed. -/
def crossed (e : Engine) : Engine :=
  let first := e.begin 0 .insert 0 [7, 9]
  let second := first.2.begin 0 .update 7 [8]
  ((second.2.execute second.1).2.execute first.1).2

theorem log_tells_pages_crossed : ∃ (made opening : Volume) (e closed : Engine) (bytes : Bytes)
    (begun : List Transaction) (ended : Outcomes),
      makeDirectory Session.onePage .empty = .ok (["data"], made) ∧ Site ["data"] ["data"] made ∧
      openWith Session.onePage (.still 5) .empty = (.ok e, opening) ∧ Course e begun ended (crossed e) ∧
      (crossed e).close = (.ok (), closed) ∧ closed.store.disk.read (closed.logPath : Path) = .ok bytes ∧
      (closed.store.fetch 0).1 = .ok [7, 9, 0, 0, 0, 0, 0, 0] ∧
      Explains 8 begun ended [7, 9, 0, 0, 0, 0, 0, 0] ((recovered bytes).filter (tellsOf 0)).getLast? := by
  have computed : ((openWith Session.onePage (.still 5) .empty).1.map fun e =>
      (e.store.disk.read (e.store.file 0 : Path), ((crossed e).close.2.store.fetch 0).1)).toOption =
        some (.ok [0, 0, 0, 0, 0, 0, 0, 0], .ok [7, 9, 0, 0, 0, 0, 0, 0]) := by
    decide +kernel
  have directory : makeDirectory Session.onePage .empty =
      .ok (["data"], Volume.empty.put ["data"] .directory) := by
    rfl
  have nothing : (Volume.empty.put ["data"] .directory).contents (Path.child ["data"] logName) = [] := by
    rfl
  rcases opened : openWith Session.onePage (.still 5) .empty with ⟨fault | e, opening⟩
  all_goals rw [opened] at computed
  · cases computed
  · obtain ⟨zero, shown⟩ := Prod.mk.inj (Option.some.inj computed)
    let first := e.begin 0 .insert 0 [7, 9]
    let second := first.2.begin 0 .update 7 [8]
    have none : ∀ e : Engine, Services e e := fun _ => .refl
    have apart : first.1 ∉ [second.1] := fun same =>
      nomatch congrArg Transaction.operation (List.mem_singleton.mp same)
    have course : Course e [first.1, second.1] _ (crossed e) :=
      (((Course.opened.begin 0 .insert 0 [7, 9]).begin 0 .update 7 [8]).execute
        (List.mem_cons_of_mem first.1 (List.mem_singleton_self second.1)) List.not_mem_nil
        (executes_execute none second.2 second.1 .none)).execute List.mem_cons_self apart
          (executes_execute none (second.2.execute second.1).2 first.1 .none)
    have formatted : ∀ page < Session.onePage.pageCount,
        e.store.disk.read (e.store.file page : Path) = .ok (List.replicate Session.onePage.pageSize 0) := by
      intro page inside
      obtain rfl : page = 0 := UInt32.lt_one_iff.mp inside
      exact zero
    have unwritten : ∀ page, ∀ r ∈ recovered [], tellsOf page r = false := nofun
    have room : (Session.marks []).Room 2 := ⟨by decide, by decide⟩
    rw [← nothing] at unwritten room
    obtain ⟨closed, bytes, closes, read, pages, -⟩ := log_tells_pages directory Volume.site_data opened
      formatted (nothing ▸ .inl rfl) unwritten course room
    obtain ⟨content, -, cached, explains⟩ := pages 0 (by decide)
    rw [closes] at shown
    cases cached.symm.trans shown
    exact ⟨_, opening, e, closed, bytes, _, _, directory, Volume.site_data, rfl, course, closes, read, shown,
      explains⟩

end Engine

end PageJournal
