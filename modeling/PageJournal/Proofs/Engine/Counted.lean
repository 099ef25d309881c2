import PageJournal.Proofs.Engine.Crash
import PageJournal.Proofs.Engine.Deeds
import PageJournal.Proofs.Engine.Site
import PageJournal.Proofs.Log.Torn

/-! The counters of an engine tell what was done with it. From its opening to its close an engine moves the
counters that the answers of its operations say, and no other. -/
namespace PageJournal

namespace Engine

open Log Volume PageStore

/-- The counters are those that were moved, and what was logged is in the log or waits. -/
structure Books (home : Path) (old oldMarks : Bytes) (pageCount : PageId) (ticks : List Counter)
    (added : Nat) (marks : Bytes) (done : List Record) (e : Engine) : Prop where
  settled : e.Settled home (old ++ done.flatMap Record.line) (oldMarks ++ marks)
  running : e.running = true
  pages : e.store.pageCount = pageCount
  whole : done.length + e.buffer.records.length = added
  written : e.store.counters.recordsWritten = UInt64.ofNat done.length
  counted : ∀ c : Counter, c.ofBatches = false → e.store.counters.get c = UInt64.ofNat (ticks.count c)

variable {home : Path} {old oldMarks marks : Bytes} {pageCount : PageId} {ticks more : List Counter}
  {added : Nat} {done : List Record} {e after : Engine}

theorem count_ofBatches (none : ∀ c ∈ more, c.ofBatches = false) : more.count .recordsWritten = 0 := by
  refine List.count_eq_zero_of_not_mem fun mem => ?_
  cases none _ mem

/-- Something that logs nothing. -/
theorem Books.work (books : e.Books home old oldMarks pageCount ticks added marks done)
    {lines : Bytes} (settled : after.Settled home (old ++ done.flatMap Record.line) (oldMarks ++ (marks ++ lines)))
    (running : after.running = e.running) (pages : after.store.pageCount = e.store.pageCount)
    (buffer : after.buffer = e.buffer) (counters : after.store.counters = e.store.counters.tickAll more)
    (none : ∀ c ∈ more, c.ofBatches = false) :
    after.Books home old oldMarks pageCount (ticks ++ more) added (marks ++ lines) done where
  settled := settled
  running := running.trans books.running
  pages := pages.trans books.pages
  whole := by
    rw [buffer]
    exact books.whole
  written := by
    have same := Counters.get_tickAll e.store.counters more .recordsWritten
    rw [count_ofBatches none] at same
    rw [counters]
    exact same.trans ((UInt64.add_zero _).trans books.written)
  counted c other := by
    rw [counters, Counters.get_tickAll, books.counted c other, List.count_append, UInt64.ofNat_add]

theorem Books.log (books : e.Books home old oldMarks pageCount ticks added marks done) (t : Transaction)
    (lsn : UInt64) : (e.log t lsn).Books home old oldMarks pageCount ticks (added + 1) marks done where
  settled := books.settled.congr ⟨rfl, rfl, rfl, rfl, rfl⟩ rfl
  running := books.running
  pages := books.pages
  whole := by
    have grown : (e.log t lsn).buffer.records = e.buffer.records ++ _ := Buffer.records_add _ _
    rw [grown, List.length_append, ← books.whole]
    rfl
  written := books.written
  counted := books.counted

theorem Books.drains (books : e.Books home old oldMarks pageCount ticks added marks done)
    (drains : Drains home e after) (running : after.running = true)
    (settled : after.Settled home (old ++ done.flatMap Record.line ++ e.buffer.records.flatMap Record.line)
      (oldMarks ++ marks)) :
    after.Books home old oldMarks pageCount ticks added marks (done ++ e.buffer.records) where
  settled := by
    rw [List.flatMap_append, ← List.append_assoc]
    exact settled
  running := running
  pages := by
    rw [drains.store]
    exact books.pages
  whole := by
    rw [drains.waiting, List.length_append]
    exact books.whole
  written := by
    rw [drains.written, books.written, List.length_append, UInt64.ofNat_add]
  counted c other := (drains.counters c other).trans (books.counted c other)

theorem Books.round (books : e.Books home old oldMarks pageCount ticks added marks done) :
    e.writerRound.Books home old oldMarks pageCount ticks added marks (done ++ e.buffer.records) := by
  obtain ⟨drains, settled⟩ := books.settled.writerRound
  exact books.drains drains books.running settled

/-- The log writer leaves the books and the cache as they are. -/
theorem Books.rounds (books : e.Books home old oldMarks pageCount ticks added marks done)
    (rounds : Rounds e after) : after.store.cache = e.store.cache ∧
      ∃ done, after.Books home old oldMarks pageCount ticks added marks done := by
  induction rounds with
  | refl => exact ⟨rfl, done, books⟩
  | tail _ round ih =>
    subst round
    obtain ⟨cache, done, books⟩ := ih
    have drains := books.settled.writerRound.1
    refine ⟨?_, _, books.round⟩
    rw [drains.store]
    exact cache

theorem Books.onStore (books : e.Books home old oldMarks pageCount ticks added marks done) (after : Engine)
    (same : after = { e with store := after.store })
    (works : Works e.dir home (home.child pagesName) e.store after.store)
    (counters : after.store.counters = e.store.counters.tickAll more)
    (none : ∀ c ∈ more, c.ofBatches = false) :
    after.Books home old oldMarks pageCount (ticks ++ more) added marks done := by
  have furnished : Furnished e after := by
    rw [same]
    exact ⟨rfl, works.dir, rfl, rfl, rfl⟩
  have settled := books.settled.works furnished works
  rw [← List.append_nil marks] at settled
  have books := books.work settled (by rw [same]) works.pages (by rw [same]) counters none
  rwa [List.append_nil] at books

theorem Books.aside (books : e.Books home old oldMarks pageCount ticks added marks done) (after : Engine)
    (furnished : Furnished e after) (store : after.store = e.store) (running : after.running = e.running)
    (buffer : after.buffer = e.buffer) : after.Books home old oldMarks pageCount ticks added marks done where
  settled := books.settled.congr furnished (by rw [store])
  running := running.trans books.running
  pages := by
    rw [store]
    exact books.pages
  whole := by
    rw [buffer]
    exact books.whole
  written := by
    rw [store]
    exact books.written
  counted := by
    rw [store]
    exact books.counted

theorem Books.count (books : e.Books home old oldMarks pageCount ticks added marks done) {c : Counter}
    (other : c.ofBatches = false) :
    (e.count c).Books home old oldMarks pageCount (ticks ++ [c]) added marks done :=
  books.onStore _ rfl (books.settled.reached.works rfl rfl rfl rfl) rfl
    (fun _ mem => List.mem_singleton.mp mem ▸ other)

theorem none_lookedUp (pageCount page : PageId) (cached ok : Bool) :
    ∀ c ∈ lookedUp pageCount page cached ok, c.ofBatches = false := by
  intro c mem
  unfold lookedUp at mem
  split at mem
  · cases mem
  · cases cached <;> cases ok <;> simp at mem <;> grind [Counter.ofBatches]

theorem none_operated (pageCount : PageId) (t : Transaction) (cached ok : Bool) :
    ∀ c ∈ operated pageCount t cached ok, c.ofBatches = false := by
  intro c mem
  unfold operated at mem
  cases kind : t.operation.isWrite with
  | true =>
    rw [kind, if_pos rfl] at mem
    cases ok <;> simp at mem
    rw [mem]
    rfl
  | false =>
    rw [kind] at mem
    exact none_lookedUp _ _ _ _ c mem

theorem Books.apply (books : e.Books home old oldMarks pageCount ticks added marks done) (t : Transaction)
    (trouble : Trouble) : (e.apply t trouble).2.Books home old oldMarks pageCount
      (ticks ++ operated pageCount t (e.caches t.page) (e.apply t trouble).1.isOk) added marks done := by
  have reached := books.settled.reached
  have counters := e.apply_counters t trouble
  rw [books.pages] at counters
  refine books.onStore _ rfl ?_ counters (none_operated _ _ _ _)
  unfold Engine.apply Engine.onStore
  cases t.operation.isWrite with
  | true => exact reached.write t.page t.payload trouble
  | false => exact reached.fetch t.page

theorem Books.execute (books : e.Books home old oldMarks pageCount ticks added marks done) {t : Transaction}
    {outcome : Except Fault Transaction} (run : Executes Rounds e t outcome after) :
    ∃ done, after.Books home old oldMarks pageCount
      (ticks ++ (Deed.executed t (e.caches t.page) outcome).ticks pageCount)
      (added + (Deed.executed t (e.caches t.page) outcome).records) marks done := by
  have intend := books.log t t.lsn
  cases run with
  | @abandoned a b trouble fault intended failed applied =>
    -- the page is looked up behind a few rounds of the log writer, which leave the copies as they are
    obtain ⟨cache, _, waited⟩ := intend.rounds intended
    have acted := waited.apply t trouble
    obtain ⟨-, last, gone⟩ := acted.rounds applied
    have counted := gone.count (c := .errors) rfl
    rw [failed, List.append_assoc] at counted
    have same : a.caches t.page = e.caches t.page := congrArg (Cache.contains · t.page) cache
    rw [same] at counted
    exact ⟨last, counted.aside _ ⟨rfl, rfl, rfl, rfl, rfl⟩ rfl rfl rfl⟩
  | @committed a b c trouble intended succeeded applied numbered =>
    obtain ⟨cache, _, waited⟩ := intend.rounds intended
    have acted := waited.apply t trouble
    obtain ⟨-, _, behind⟩ := acted.rounds applied
    have taken := behind.aside b.allocateLsn.2 ⟨rfl, rfl, rfl, rfl, rfl⟩ rfl rfl rfl
    obtain ⟨-, last, ready⟩ := taken.rounds numbered
    have counted := (ready.log t.commit b.allocateLsn.1).count (c := .transactions) rfl
    rw [succeeded, List.append_assoc] at counted
    have same : a.caches t.page = e.caches t.page := congrArg (Cache.contains · t.page) cache
    rw [same] at counted
    exact ⟨last, counted⟩

theorem countFailure_eq {α : Type} (r : Except Fault α × Engine) :
    countFailure r = (r.1, if r.1.isOk then r.2 else r.2.count .errors) := by
  rcases r with ⟨_ | _, e⟩ <;> rfl

theorem none_ticks (r : Checkpoint.Report) : ∀ c ∈ r.ticks, c.ofBatches = false := by
  intro c mem
  rcases List.mem_append.mp mem with mem | mem
  all_goals
    obtain ⟨_, -, rfl⟩ := List.mem_map.mp mem
    rfl

theorem Books.counting (books : e.Books home old oldMarks pageCount ticks added marks done) (ok : Bool) :
    Books home old oldMarks pageCount (ticks ++ if ok then [] else [.errors]) added marks done
      (if ok then e else e.count .errors) := by
  cases ok with
  | true => simpa using books
  | false => exact books.count rfl

theorem begun_of_generate {g generator : Generator} {thread : UInt32} {t : Transaction} {begun : Engine}
    (generated : e.generate g thread = (t, generator, begun)) :
    begun = e.allocateTransaction.2.allocateLsn.2 := by
  obtain ⟨_, _, _, -, after⟩ := generate_eq_begin e g thread
  rwa [generated] at after

theorem Books.read (books : e.Books home old oldMarks pageCount ticks added marks done) (page : PageId) :
    (e.read page).2.Books home old oldMarks pageCount
      (ticks ++ (Deed.read page (e.caches page) (e.read page).1).ticks pageCount) added marks done := by
  have fetched := books.onStore (e.onStore (·.fetch page)).2 rfl (books.settled.reached.fetch page)
    (e.store.fetch_counters page) (none_lookedUp _ _ _ _)
  have counted := fetched.counting (e.store.fetch page).1.isOk
  rw [List.append_assoc, books.pages] at counted
  unfold Engine.read
  rw [countFailure_eq]
  exact counted

theorem Books.write (books : e.Books home old oldMarks pageCount ticks added marks done) (page : PageId)
    (payload : Bytes) (trouble : Trouble) :
    (e.write page payload trouble).2.Books home old oldMarks pageCount
      (ticks ++ (Deed.written (e.write page payload trouble).1).ticks pageCount) added marks done := by
  have written := books.onStore (e.onStore (·.write page payload trouble)).2 rfl
    (books.settled.reached.write page payload trouble) (e.store.write_counters page payload trouble)
    fun c mem => by
      split at mem <;> simp at mem
      rw [mem]
      rfl
  have counted := written.counting (e.store.write page payload trouble).1.isOk
  have once : ∀ ok : Bool, (if ok then [Counter.writes] else []) ++ (if ok then [] else [.errors]) =
      if ok then [.writes] else [.errors] := by
    intro ok
    cases ok <;> rfl
  rw [List.append_assoc, once] at counted
  unfold Engine.write
  rw [countFailure_eq]
  exact counted

theorem Books.checkpoint (books : e.Books home old oldMarks pageCount ticks added marks done)
    (thread : UInt32) (trouble : PageId → Trouble) :
    let deed := Deed.checkpointed (e.checkpoint thread trouble).1
    ∃ lines, (e.checkpoint thread trouble).2.Books home old oldMarks pageCount
        (ticks ++ deed.ticks pageCount) added (marks ++ lines) done ∧
      lines.count lineFeed = if deed.complete then 1 else 0 := by
  obtain ⟨report, after, cycled, reported, settled⟩ := books.settled.cycle thread trouble
  rw [books.settled.checkpoint, cycled]
  refine ⟨report.lines, books.work ?_ reported.running reported.pages reported.buffer reported.counters
    (none_ticks report), report.count_lines⟩
  rw [← List.append_assoc]
  exact settled

/-- Every deed moves the counters that its answer says. -/
theorem Books.does (books : e.Books home old oldMarks pageCount ticks added marks done) {deed : Deed}
    (does : Does home e deed after) : ∃ lines done,
      after.Books home old oldMarks pageCount (ticks ++ deed.ticks pageCount) (added + deed.records)
        (marks ++ lines) done ∧
      lines.count lineFeed = if deed.complete then 1 else 0 := by
  -- only a checkpoint appends to its log
  have unmarked : ∀ (deed : Deed) {after : Engine}, deed.complete = false →
      (∃ done, after.Books home old oldMarks pageCount (ticks ++ deed.ticks pageCount) (added + deed.records)
        marks done) →
      ∃ lines done, after.Books home old oldMarks pageCount (ticks ++ deed.ticks pageCount)
        (added + deed.records) (marks ++ lines) done ∧ lines.count lineFeed = if deed.complete then 1 else 0 := by
    rintro deed after no ⟨done, books⟩
    exact ⟨[], done, by rwa [List.append_nil], by rw [no]; rfl⟩
  have unmoved : ∀ {done : List Record} {after : Engine},
      after.Books home old oldMarks pageCount ticks added marks done → ∃ done,
        after.Books home old oldMarks pageCount (ticks ++ Deed.quiet.ticks pageCount)
          (added + Deed.quiet.records) marks done := by
    intro done after books
    refine ⟨done, ?_⟩
    rw [Deed.ticks, List.append_nil]
    exact books
  cases does with
  | begin thread operation page payload =>
    exact unmarked _ rfl (unmoved (books.aside _ ⟨rfl, rfl, rfl, rfl, rfl⟩ rfl rfl rfl))
  | execute t run => exact unmarked _ rfl (books.execute run)
  | @submit thread t generator begun _ generated outcome run =>
    obtain rfl := begun_of_generate generated
    have begun := books.aside { e.allocateTransaction.2.allocateLsn.2 with generator }
      ⟨rfl, rfl, rfl, rfl, rfl⟩ rfl rfl rfl
    exact unmarked _ rfl (begun.execute run)
  | submitWith g thread generated run =>
    obtain rfl := begun_of_generate generated
    have begun := books.aside e.allocateTransaction.2.allocateLsn.2
      ⟨rfl, rfl, rfl, rfl, rfl⟩ rfl rfl rfl
    exact unmarked _ rfl (begun.execute run)
  | read page => exact unmarked _ rfl ⟨done, books.read page⟩
  | write page payload trouble => exact unmarked _ rfl ⟨done, books.write page payload trouble⟩
  | checkpoint thread trouble =>
    obtain ⟨lines, books, one⟩ := books.checkpoint thread trouble
    exact ⟨lines, done, books, one⟩
  | round => exact unmarked _ rfl (unmoved books.round)
  | @meddle disk within =>
    have settled := books.settled.within (e.onDisk disk) ⟨rfl, rfl, rfl, rfl, rfl⟩ within
    exact unmarked _ rfl
      (unmoved ⟨settled, books.running, books.pages, books.whole, books.written, books.counted⟩)

theorem Books.history (books : e.Books home old oldMarks pageCount [] 0 [] []) {deeds : List Deed}
    (history : History home e deeds after) : ∃ marks done,
      after.Books home old oldMarks pageCount (deeds.flatMap (Deed.ticks pageCount))
        (deeds.map Deed.records).sum marks done ∧ marks.count lineFeed = deeds.countP Deed.complete := by
  induction history with
  | here => exact ⟨[], [], books, rfl⟩
  | @more deeds mid after deed history does ih =>
    obtain ⟨marks, _, books, counted⟩ := ih
    obtain ⟨lines, done, books, one⟩ := books.does does
    refine ⟨marks ++ lines, done, ?_, ?_⟩
    · simpa using books
    · rw [List.count_append, counted, one, List.countP_append, List.countP_singleton]

theorem Begins.books {c : Config} {dir : Path} (begins : Begins c dir old e)
    (settled : e.Settled home old oldMarks) : e.Books home old oldMarks c.pageCount [] 0 [] [] where
  settled := by simpa using settled
  running := begins.running
  pages := by rw [begins.store]
  whole := by rw [begins.waiting]; rfl
  written := by rw [begins.store]; rfl
  counted c _ := by rw [begins.store, Counters.get_zero]; rfl

/-- The counters and the logs of a closed engine tell what was done with it. A counter is a word that wraps,
so it is the number itself below `2 ^ 64`. -/
structure Tells (pageCount : PageId) (deeds : List Deed) (log marks : Bytes) (m : Counters) : Prop where
  transactions : m.transactions = UInt64.ofNat (deeds.countP Deed.committed)
  errors : m.errors = UInt64.ofNat (deeds.countP Deed.failed + (deeds.map Deed.failedPages).sum)
  writes : m.writes = UInt64.ofNat (deeds.countP Deed.wrote)
  hits : m.cacheHits = UInt64.ofNat (deeds.countP (Deed.found pageCount))
  misses : m.cacheMisses = UInt64.ofNat (deeds.countP (Deed.lacked pageCount))
  lookups : m.cacheHits + m.cacheMisses = UInt64.ofNat (deeds.countP (Deed.sought pageCount))
  reads : m.reads = UInt64.ofNat (deeds.countP (Deed.missed pageCount))
  checkpoints : m.checkpoints = UInt64.ofNat (deeds.countP Deed.complete)
  marks : marks.count lineFeed = deeds.countP Deed.complete
  recordsWritten : m.recordsWritten = UInt64.ofNat (log.count lineFeed)
  log : log.count lineFeed = 2 * deeds.countP Deed.committed + deeds.countP Deed.abandoned

/-- When an engine is closed after any history, its counters and what was appended to its logs match
the history. -/
theorem counters_match {c : Config} {clock : Clock} {v made opening : Volume} {dir home : Path}
    {e last : Engine} {deeds : List Deed} (directory : makeDirectory c v = .ok (dir, made))
    (site : Site dir home made) (opened : openWith c clock v = (.ok e, opening))
    (history : History home e deeds last) :
    ∃ closed log marks, last.close = (.ok (), closed) ∧
      closed.store.disk.read (closed.logPath : Path) =
        .ok (made.contents (home.child logName) ++ log) ∧
      closed.store.disk.read (closed.dir.child checkpointLogName : Path) =
        .ok (made.contents (home.child checkpointLogName) ++ marks) ∧
      Tells c.pageCount deeds log marks closed.store.counters := by
  obtain ⟨settled, begins⟩ := settled_openWith directory site opened
  obtain ⟨marks, done, books, complete⟩ := (begins.books settled).history history
  obtain ⟨closed, closes, drains, settled⟩ := books.settled.close books.running
  -- closing moves the counters of batches only, so the others are what the history left
  have moved : ∀ c' : Counter, c'.ofBatches = false → closed.store.counters.get c' =
      UInt64.ofNat (deeds.map fun d => d.moves c.pageCount c').sum := by
    intro c' other
    rw [drains.counters c' other, books.counted c' other, sum_flatMap]
  have kind : ∀ (kind : Deed → Bool) (c' : Counter), c'.ofBatches = false →
      (∀ d, Deed.moves c.pageCount d c' = if kind d then 1 else 0) →
      closed.store.counters.get c' = UInt64.ofNat (deeds.countP kind) := by
    intro kind c' other each
    rw [moved c' other, countP_eq_sum]
    simp only [each]
  have written : ((done ++ last.buffer.records).flatMap Record.line).count lineFeed =
      (deeds.map Deed.records).sum := by
    rw [count_lines, List.length_append, books.whole]
  obtain ⟨wal, checkpoints⟩ := settled.read
  refine ⟨closed, (done ++ last.buffer.records).flatMap Record.line, marks, closes, ?_, checkpoints, ?_⟩
  · rw [wal, List.flatMap_append, List.append_assoc]
  · have hits := kind (Deed.found c.pageCount) .cacheHits rfl fun _ => rfl
    have misses := kind (Deed.lacked c.pageCount) .cacheMisses rfl fun _ => rfl
    exact {
      transactions := kind Deed.committed .transactions rfl fun _ => rfl
      errors := (moved .errors rfl).trans (congrArg _ (sum_moves_errors _ _))
      writes := kind Deed.wrote .writes rfl fun _ => rfl
      hits
      misses
      lookups := by
        rw [countP_sought, UInt64.ofNat_add]
        exact congr (congrArg _ hits) misses
      reads := kind (Deed.missed c.pageCount) .reads rfl fun _ => rfl
      checkpoints := kind Deed.complete .checkpoints rfl fun _ => rfl
      marks := complete
      recordsWritten := by
        rw [drains.written, books.written, written, ← books.whole, UInt64.ofNat_add]
      log := written.trans (sum_records deeds) }

/-- An insert and a read of a page that the store does not have. -/
theorem counters_match_inserted : ∃ (made opening : Volume) (e last closed : Engine) (deeds : List Deed)
    (log marks : Bytes), makeDirectory Session.onePage .empty = .ok (["data"], made) ∧
      Site ["data"] ["data"] made ∧ openWith Session.onePage (.still 5) .empty = (.ok e, opening) ∧
      History ["data"] e deeds last ∧ last.close = (.ok (), closed) ∧
      Tells 1 deeds log marks closed.store.counters ∧ closed.store.counters.transactions = 1 ∧
      closed.store.counters.errors = 1 ∧ log.count lineFeed = 2 := by
  have computed : ((openWith Session.onePage (.still 5) .empty).1.map fun e =>
      (((e.begin 0 .insert 0 []).2.execute (e.begin 0 .insert 0 []).1).1.isOk,
        ((Session.inserted e).read 7).1.isOk)).toOption = some (true, false) := by
    decide +kernel
  have directory : makeDirectory Session.onePage .empty =
      .ok (["data"], Volume.empty.put ["data"] .directory) := by
    rfl
  rcases opened : openWith Session.onePage (.still 5) .empty with ⟨fault | e, opening⟩
  all_goals rw [opened] at computed
  · cases computed
  · obtain ⟨commits, fails⟩ := Prod.mk.inj (Option.some.inj computed)
    let begun := (e.begin 0 .insert 0 []).2
    let t := (e.begin 0 .insert 0 []).1
    have run : Executes Rounds begun t (begun.execute t).1 (begun.execute t).2 :=
      executes_execute (fun _ => .refl) begun t .none
    have history : History ["data"] e _ ((begun.execute t).2.read 7).2 :=
      ((History.here.more (.begin 0 .insert 0 [])).more (.execute t run)).more (.read 7)
    obtain ⟨closed, log, marks, closes, -, -, tells⟩ :=
      counters_match directory Volume.site_data opened history
    have transactions := tells.transactions
    have errors := tells.errors
    have lines := tells.log
    rcases executed : (begun.execute t).1 with fault | done
    · exact absurd (executed ▸ commits) nofun
    rcases read : ((begun.execute t).2.read 7).1 with fault | bytes
    · rw [executed, read] at transactions errors lines
      exact ⟨_, opening, e, _, closed, _, log, marks, directory, Volume.site_data, rfl, history, closes, tells,
        transactions, errors, lines⟩
    · exact absurd (read ▸ fails) nofun

end Engine

end PageJournal
