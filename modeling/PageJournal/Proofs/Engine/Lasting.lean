import PageJournal.Engine.Background
import PageJournal.Proofs.Engine.LateDrain
import PageJournal.Proofs.Engine.Shown
import PageJournal.Proofs.Engine.Site

/-! Pages that last. Whatever an engine does, and also when it is opened again on what it left behind, its files stay
in their places and every copy in its cache is what the page's file holds. So a page that nobody writes to goes on
to read as it did. -/
namespace PageJournal

namespace Volume

variable {dir place home : Path} {v w : Volume}

/-- Appending makes no file of anything else, and nothing else of a file. -/
theorem Ordinary.append (ordinary : Ordinary place v) {h : Handle} {bytes : Bytes}
    (appended : v.append h bytes = .ok w) : Ordinary place w := by
  cases h with
  | device d => exact append_device appended ▸ ordinary
  | file k =>
    intro name e there
    rw [entry?_append appended] at there
    obtain ⟨before, old, rfl⟩ := Option.map_eq_some_iff.mp there
    rcases ordinary name before old with rfl | ⟨i, reversed, rfl⟩
    · exact .inl rfl
    · by_cases own : i = k
      · exact .inr ⟨i, _, if_pos own⟩
      · exact .inr ⟨i, _, if_neg own⟩

end Volume

namespace Log

/-- A batch that is delivered to a file goes through, and nothing else is appended. -/
theorem deliver_file (k : Nat) (batch : List Record) (f : Flusher Volume) :
    ∃ n after, f.deliver (.ofHandle (.file k)) batch = (.ok n, after) ∧ after.events = f.events ∧
      f.writer.sink.append (.file k) (batch.flatMap Record.line) = .ok after.writer.sink := by
  unfold Flusher.deliver Writer.writeBatch
  cases batch with
  | nil => exact ⟨_, _, rfl, rfl, f.writer.sink.append_nil k⟩
  | cons r rest =>
    obtain ⟨writer, done, disk⟩ := writePieces_file k (pieces f.writer.policy (r :: rest)) f.writer
    rw [flatten_pieces] at disk
    simp only [List.isEmpty_cons, Bool.false_eq_true, if_false, done]
    exact ⟨_, _, rfl, rfl, disk⟩

end Log

namespace Engine

open Volume PageStore Checkpoint Checkpointer

variable {spared : PageId → Prop} {home : Path} {e mid after : Engine}

/-- The files of an engine are in their places, with nothing but files and directories beside them, and every copy
in its cache is what the page's file holds. -/
structure Coherent (home : Path) (e : Engine) : Prop where
  settled : ∃ log marks, e.Settled home log marks
  beside : Ordinary home e.store.disk
  agrees : e.store.cache.Agrees e.store.readFile

theorem Coherent.reached (coherent : e.Coherent home) : e.store.Reached e.dir home (home.child pagesName) := by
  obtain ⟨log, marks, settled⟩ := coherent.settled
  exact settled.reached

theorem Coherent.site (coherent : e.Coherent home) : Site e.dir home e.store.disk where
  leads := coherent.reached.leads
  sound := coherent.reached.tended.sound
  beside := coherent.beside
  pages := coherent.reached.tended.ordinary

theorem Coherent.tends (coherent : e.Coherent home) : Tends e.checkpointLog.file (home.child pagesName)
    (e.store.table (home.child pagesName)) e.checkpointer := by
  obtain ⟨log, marks, settled⟩ := coherent.settled
  exact ⟨shows_table settled.orderly coherent.agrees, rfl⟩

/-- Everything stays coherent, and the pages that are spared stay as they are. -/
structure Lasts (spared : PageId → Prop) (home : Path) (e after : Engine) : Prop where
  coherent : after.Coherent home
  size : after.store.pageSize = e.store.pageSize
  pages : e.store.pageCount ≤ after.store.pageCount
  bytes : ∀ page, spared page → ∀ bytes, e.store.readFile page = .ok bytes → after.store.readFile page = .ok bytes

theorem Lasts.refl (coherent : e.Coherent home) : Lasts spared home e e :=
  ⟨coherent, rfl, UInt32.le_refl _, fun _ _ _ there => there⟩

theorem Lasts.trans (first : Lasts spared home e mid) (later : Lasts spared home mid after) :
    Lasts spared home e after where
  coherent := later.coherent
  size := later.size.trans first.size
  pages := UInt32.le_trans first.pages later.pages
  bytes page spare bytes there := later.bytes page spare bytes (first.bytes page spare bytes there)

/-- Something is appended to one of the files beside the pages. -/
theorem Coherent.append (coherent : e.Coherent home) {name : String} {k : Nat} {reversed more : Bytes}
    (there : e.store.disk.entry? (home.child name) = some (.file k reversed)) (furnished : Furnished e after)
    (appended : e.store.disk.append (.file k) more = .ok after.store.disk)
    (store : after.store = { e.store with disk := after.store.disk, counters := after.store.counters }) :
    Lasts spared home e after := by
  obtain ⟨log, marks, settled⟩ := coherent.settled
  obtain ⟨reached, appends⟩ := settled.append there appended
  have files : ∀ own i bytes, e.store.disk.entry? (home.child own) = some (.file i bytes) →
      ∃ longer : Bytes, after.store.disk.entry? (home.child own) = some (.file i longer.reverse) := by
    intro own i bytes here
    by_cases same : own = name
    · subst same
      exact ⟨(more.reverse ++ bytes).reverse, by rw [List.reverse_reverse, appends.here i bytes here]⟩
    · exact ⟨bytes.reverse, by rw [List.reverse_reverse, appends.elsewhere _ (child_ne_child same), here]⟩
  have pages : ∀ x, after.store.disk.slot? (home.child pagesName) x = e.store.disk.slot? (home.child pagesName) x :=
    fun x => appends.elsewhere _ (child_ne_grandchild home name pagesName x.name).symm
  have reads : after.store.readFile = e.store.readFile := by
    have moved := (shows_table coherent.reached.tended.orderly coherent.agrees).onDisk reached.tended.orderly pages
    rw [store]
    exact congrArg Table.contents moved.table
  obtain ⟨k₁, sink, logged⟩ := settled.log
  obtain ⟨k₂, checkpoints, marked⟩ := settled.marks
  obtain ⟨k₃, told, events, noted⟩ := settled.events
  obtain ⟨log', logged⟩ := files _ _ _ logged
  obtain ⟨marks', marked⟩ := files _ _ _ marked
  obtain ⟨told', noted⟩ := files _ _ _ noted
  refine ⟨⟨⟨log', marks', ⟨furnished.dir ▸ reached.leads, furnished.pages ▸ reached.tended⟩,
    ⟨k₁, furnished.writer.trans sink, logged⟩, ⟨k₂, furnished.checkpoints.trans checkpoints, marked⟩,
    ⟨k₃, _, furnished.events.trans events, noted⟩⟩, coherent.beside.append appended, ?_⟩, ?_, ?_,
    fun page _ bytes read => reads ▸ read⟩
  · rw [reads, store]
    exact coherent.agrees
  · rw [store]
  · rw [store]
    exact UInt32.le_refl _

/-- Time passes, a number is drawn, a record is added, an event is noted: the files and the pages are not concerned. -/
theorem Coherent.aside (coherent : e.Coherent home) (furnished : Furnished e after) {counters : Counters}
    (store : after.store = { e.store with counters }) : Lasts spared home e after := by
  obtain ⟨log, marks, settled⟩ := coherent.settled
  obtain ⟨k, -, there⟩ := settled.log
  have nothing : e.store.disk.append (.file k) [] = .ok after.store.disk := by
    rw [store]
    exact e.store.disk.append_nil k
  exact coherent.append there furnished nothing (by rw [store])

/-- The page store has worked on its own files, and shows the same pages. -/
theorem Coherent.shown (coherent : e.Coherent home) {s : PageStore}
    (works : Works e.dir home (home.child pagesName) e.store s) {h : Handle} {t : Table}
    (shows : Shows h (home.child pagesName) t s)
    (same : ∀ page, spared page → t.contents page = e.store.readFile page) :
    Lasts spared home e { e with store := s } := by
  obtain ⟨log, marks, settled⟩ := coherent.settled
  have reads : s.readFile = t.contents := congrArg Table.contents shows.table
  refine ⟨⟨⟨log, marks, settled.onStore works⟩, fun name entry there => ?_, ?_⟩, works.size, ?_,
    fun page spare bytes there => ?_⟩
  · rw [works.within.elsewhere _ (child_ne_grandchild home name pagesName)] at there
    exact coherent.beside name entry there
  · exact reads ▸ shows.agrees
  · exact works.pages ▸ UInt32.le_refl _
  · exact (congrFun reads page).trans ((same page spare).trans there)

/-- A checkpoint cycle flushes pages as they are, and then appends to the checkpoint log at most. -/
theorem Coherent.cycle (coherent : e.Coherent home) (now : UInt64) (thread : UInt32) (trouble : PageId → Trouble) :
    Lasts spared home e (e.withCheckpointer (e.checkpointer.cycle now thread trouble).2) := by
  obtain ⟨log, marks, settled⟩ := coherent.settled
  obtain ⟨j, file, -⟩ := settled.marks
  obtain ⟨c, done, cycled⟩ := cycled_cycle (c := e.checkpointer) file now thread trouble
  have flushed : Lasts spared home e { e with store := e.checkpointer.flushedStore trouble } :=
    coherent.shown (coherent.reached.flushPages trouble _) (shows_flushPages coherent.tends.shows _) fun _ _ => rfl
  obtain ⟨log', marks', mid⟩ := flushed.coherent.settled
  obtain ⟨own, writer, marked⟩ := mid.marks
  cases file.symm.trans writer
  have place : c.store.dir = (e.checkpointer.flushedStore trouble).dir := by rw [cycled.store]
  rw [done]
  exact flushed.trans (flushed.coherent.append marked ⟨rfl, place, rfl, cycled.log, cycled.events⟩
    cycled.disk cycled.store)

/-- The engine after a call on its page store or its checkpointer. -/
def serve (e : Engine) (call : Call) : Engine := e.withCheckpointer (e.checkpointer.act call).2

/-- The payload that a call brought to a page. -/
def brought? (e : Engine) (call : Call) (page : PageId) : Option Bytes :=
  Answer.written? page (call, (e.checkpointer.act call).1)

/-- What the pages read as when a call has been served. -/
theorem Coherent.served (coherent : e.Coherent home) (call : Call) (page : PageId) :
    (e.serve call).store.readFile page =
      (e.store.table (home.child pagesName)).holding page (e.brought? call page) := by
  obtain ⟨answer, after⟩ := coherent.tends.act call
  obtain ⟨-, -, contents⟩ := Table.act_contents (e.store.table (home.child pagesName)) call
  unfold brought?
  rw [answer, ← contents]
  exact congrFun (congrArg Table.contents after.shows.table) page

theorem Coherent.serve (coherent : e.Coherent home) (call : Call)
    (unwritten : ∀ page, spared page → e.brought? call page = none) : Lasts spared home e (e.serve call) := by
  obtain ⟨answer, after⟩ := coherent.tends.act call
  have same : ∀ page, spared page →
      ((e.store.table (home.child pagesName)).act call).2.contents page = e.store.readFile page := by
    intro page spare
    have read := coherent.served call page
    rw [unwritten page spare] at read
    exact (congrFun (congrArg Table.contents after.shows.table) page).symm.trans read
  have reached := coherent.reached
  cases call with
  | read page =>
    obtain ⟨counters, frame⟩ := e.store.read_frame page
    refine coherent.shown (s := (e.store.read page).2) ?_ after.shows same
    rw [frame]
    exact reached.works rfl rfl rfl rfl
  | fetch page => exact coherent.shown (reached.fetch page) after.shows same
  | inspect page =>
    obtain ⟨counters, frame⟩ := e.store.page_frame page
    refine coherent.shown (s := (e.store.page page).2) ?_ after.shows same
    rw [frame]
    exact reached.works rfl rfl rfl rfl
  | write page payload trouble => exact coherent.shown (reached.write page payload trouble) after.shows same
  | flush page trouble => exact coherent.shown (reached.flush page trouble) after.shows same
  | cycle now thread trouble => exact coherent.cycle now thread trouble

/-- A log writer has worked on the engine's own log. -/
theorem Coherent.drained (coherent : e.Coherent home) {f : Log.Flusher Volume}
    (done : ∀ k, e.writer.sink = .file k → Log.Drained k e.flusher f) (running : Bool) (clock : Clock) :
    Lasts spared home e { e.withFlusher f with running, clock } := by
  obtain ⟨log, marks, settled⟩ := coherent.settled
  obtain ⟨k, sink, there⟩ := settled.log
  have drained := done k sink
  exact coherent.append there ⟨rfl, rfl, rfl, rfl, drained.events⟩ drained.disk rfl

theorem Coherent.writerRound (coherent : e.Coherent home) : Lasts spared home e e.writerRound := by
  have rounded : ∀ k, e.writer.sink = .file k → Log.Drained k e.flusher (e.flusher.round e.sink e.now.1) := by
    intro k sink
    have own : e.sink = .ofHandle (.file k) := congrArg _ sink
    rw [own]
    exact Log.drained_round k _ _
  exact coherent.drained rounded e.running e.now.2.clock

theorem Coherent.joinServices (coherent : e.Coherent home) : Lasts spared home e e.joinServices := by
  cases running : e.running with
  | false =>
    rw [joinServices_of_stopped running]
    exact .refl coherent
  | true =>
    have first : Lasts spared home e e.writerRound := coherent.writerRound
    have finished : ∀ k, e.writerRound.writer.sink = .file k → Log.Drained k e.writerRound.flusher
        (e.writerRound.flusher.finish e.writerRound.sink e.writerRound.now.1) := by
      intro k sink
      have own : e.writerRound.sink = .ofHandle (.file k) := congrArg _ sink
      rw [own]
      exact Log.drained_finish k _ _
    have same : e.joinServices = _ := if_pos running
    rw [same]
    exact first.trans (first.coherent.drained finished false e.writerRound.now.2.clock)

/-- What is left when the log writer is gone goes to the log through a file opened for it. -/
theorem Coherent.drainRemaining (coherent : e.Coherent home) : Lasts spared home e e.drainRemaining.2 := by
  by_cases none : e.buffer.records = []
  · have same : e.drainRemaining = (.ok 0, e) := drainRemaining_nothing none
    rw [same]
    exact .refl coherent
  · obtain ⟨log, marks, settled⟩ := coherent.settled
    obtain ⟨k, -, there⟩ := settled.log
    have opens : e.store.disk.openAppend (e.logPath : Path) = .ok (.file k, e.store.disk) := by
      unfold Volume.openAppend openWrite logPath
      rw [settled.reached.leads.reach_child isName_log short_log (by simp [there])]
      simp only [bind, Except.bind, there]
      rfl
    obtain ⟨n, late, delivered, events, disk⟩ :=
      Log.deliver_file k e.buffer.records (e.emptied.lateWriter e.store.disk)
    have written := deliverLate_written (a := .ordinary) (e := e.emptied) opens delivered
    have same : e.drainRemaining = (.ok n, e.emptied.withLate late) :=
      (drainRemaining_some none).trans written
    rw [same]
    exact coherent.append there ⟨rfl, rfl, rfl, rfl, congrArg EventLog.file events⟩ disk rfl

/-- Lines go to the event log, or none do. -/
theorem Coherent.reports (coherent : e.Coherent home) {events : EventLog} {disk : Volume}
    (file : events.file = e.events.file)
    (written : disk = e.store.disk ∨ ∃ more, e.store.disk.append e.events.file more = .ok disk) :
    Lasts spared home e { e with events, store := { e.store with disk } } := by
  obtain ⟨log, marks, settled⟩ := coherent.settled
  obtain ⟨k, reversed, own, there⟩ := settled.events
  rcases written with rfl | ⟨more, appended⟩
  · exact coherent.aside ⟨rfl, rfl, rfl, rfl, file⟩ rfl
  · rw [own] at appended
    exact coherent.append there ⟨rfl, rfl, rfl, rfl, file⟩ appended rfl

/-- An engine that has just been opened at a site. -/
theorem coherent_openWith {c : Config} {clock : Clock} {dir : Path} {v made opening : Volume}
    (directory : makeDirectory c v = .ok (dir, made)) (site : Site dir home made)
    (opened : openWith c clock v = (.ok e, opening)) : e.Coherent home := by
  obtain ⟨settled, begins, there, -⟩ := openWith_site directory site opened
  refine ⟨⟨_, _, settled⟩, there.beside, ?_⟩
  rw [begins.store]
  exact Cache.agrees_create _ _ _

/-- The engine is gone, and another one is opened on what it left behind. -/
theorem Coherent.reopened (coherent : e.Coherent home) {c : Config} {clock : Clock} {opening : Volume}
    (place : (Route.ofText c.dataDir).map (·.names) = .ok e.dir) (size : c.pageSize = e.store.pageSize)
    (pages : e.store.pageCount ≤ c.pageCount) (opened : openWith c clock e.store.disk = (.ok after, opening)) :
    Lasts spared home e after := by
  have directory : makeDirectory c e.store.disk = .ok (e.dir, e.store.disk) := by
    obtain ⟨route, found, names⟩ := map_eq_ok.mp place
    refine bind_eq_ok.mpr ⟨route, found, bind_eq_ok.mpr ⟨e.store.disk, ?_, by rw [names]⟩⟩
    rw [names]
    exact coherent.reached.leads.createDirectories_self
  obtain ⟨-, begins, -, keeps⟩ := openWith_site directory coherent.site opened
  have next := coherent_openWith directory coherent.site opened
  refine ⟨next, ?_, ?_, fun page _ bytes there => ?_⟩
  · rw [begins.store]
    exact size
  · rw [begins.store]
    exact pages
  · -- the bytes are those of a file, and the file is still there
    have same : after.store.pageSize = e.store.pageSize := (congrArg PageStore.pageSize begins.store).trans size
    rw [readFile_eq coherent.reached.tended.orderly] at there
    rw [readFile_eq next.reached.tended.orderly, same]
    rcases stands : e.store.disk.slot? (home.child pagesName) (.page page) with _ | (⟨i, reversed⟩ | _ | _ | _)
    all_goals rw [stands] at there
    · cases there
    · rw [keeps page i reversed stands]
      exact there
    all_goals cases there

/-- All that can happen to an engine while nothing is written to the pages that are spared. -/
inductive Happens (spared : PageId → Prop) (e : Engine) : Engine → Prop
  /-- Nothing that concerns the files and the pages. -/
  | aside {after : Engine} (counters : Counters) (furnished : Furnished e after)
    (store : after.store = { e.store with counters }) : Happens spared e after
  | serve (call : Call) (unwritten : ∀ page, spared page → e.brought? call page = none) :
    Happens spared e (e.serve call)
  | round : Happens spared e e.writerRound
  | join : Happens spared e e.joinServices
  | drain : Happens spared e e.drainRemaining.2
  | flush : Happens spared e e.flushEvents
  | settle : Happens spared e e.settle
  /-- The engine is gone, and one of as many pages or more is opened in its directory. -/
  | reopen {c : Config} {clock : Clock} {opening : Volume} {after : Engine}
    (place : (Route.ofText c.dataDir).map (·.names) = .ok e.dir) (size : c.pageSize = e.store.pageSize)
    (pages : e.store.pageCount ≤ c.pageCount) (opened : openWith c clock e.store.disk = (.ok after, opening)) :
    Happens spared e after

/-- Any number of things happen to an engine. -/
abbrev Elapses (spared : PageId → Prop) : Engine → Engine → Prop := Relation.ReflTransGen (Happens spared)

theorem Coherent.settle (coherent : e.Coherent home) : Lasts spared home e e.settle := by
  have spills : ∀ {e : Engine}, e.Coherent home → Lasts spared home e
      { e with events := (e.events.spill e.store.disk).1,
               store := { e.store with disk := (e.events.spill e.store.disk).2 } } := by
    intro e coherent
    obtain ⟨file, written⟩ := spill_cases e.events e.store.disk
    exact coherent.reports file written
  unfold Engine.settle
  split
  · have first : Lasts spared home e e.writerRound := coherent.writerRound
    exact first.trans (spills first.coherent)
  · exact spills coherent

theorem Coherent.happens (coherent : e.Coherent home) (happens : Happens spared e after) :
    Lasts spared home e after := by
  cases happens with
  | aside counters furnished store => exact coherent.aside furnished store
  | serve call unwritten => exact coherent.serve call unwritten
  | round => exact coherent.writerRound
  | join => exact coherent.joinServices
  | drain => exact coherent.drainRemaining
  | flush =>
    obtain ⟨file, written⟩ := flush_cases e.events e.store.disk
    exact coherent.reports file written
  | settle => exact coherent.settle
  | reopen place size pages opened => exact coherent.reopened place size pages opened

theorem Coherent.elapses (coherent : e.Coherent home) (elapses : Elapses spared e after) :
    Lasts spared home e after := by
  induction elapses with
  | refl => exact .refl coherent
  | tail _ last ih => exact ih.trans (ih.coherent.happens last)

end Engine

end PageJournal
