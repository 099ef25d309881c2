import PageJournal.Proofs.Engine.Opening
import PageJournal.Proofs.Page.Available

/-! An engine whose files are all in their places: the page files in a directory of their own, and beside it
the logs, each a file that no other name stands for. Page operations change nothing but the page directory,
and what is appended to one log is put nowhere else. -/
namespace PageJournal

namespace Volume

variable {dir place way home : Path} {u v w : Volume}

/-- A file that stands outside the directory can be written on. -/
theorem Tended.append (tended : Tended dir place v) {p : Path} (outside : ∀ name, p ≠ place.child name)
    {k : Nat} {bytes reversed : Bytes} (there : v.entry? p = some (.file k reversed))
    (appended : v.append (.file k) bytes = .ok w) : Tended dir place w where
  leads := tended.leads.append appended
  sound := tended.sound.append appended
  ordinary name e now :=
    tended.ordinary name e ((tended.sound.append_other there appended (outside name).symm).symm.trans now)

/-- A change that stays within a directory of page files. -/
structure Within (way home dir place : Path) (v w : Volume) : Prop where
  leads : w.LeadsTo way home
  tended : Tended dir place w
  elsewhere : ∀ q, (∀ name, q ≠ place.child name) → w.entry? q = v.entry? q

theorem Within.refl (leads : v.LeadsTo way home) (tended : Tended dir place v) :
    Within way home dir place v v := ⟨leads, tended, fun _ _ => rfl⟩

theorem Within.trans (first : Within way home dir place u v) (later : Within way home dir place v w) :
    Within way home dir place u w :=
  ⟨later.leads, later.tended, fun q out => (later.elsewhere q out).trans (first.elsewhere q out)⟩

theorem Tended.replace_within (tended : Tended dir place v) (leads : v.LeadsTo way home) (t : Trouble)
    (p : PageId) (bytes : Bytes) (durable : Bool) :
    Within way home dir place v (v.replace t (PageStore.fileIn dir p) bytes durable).2 := by
  obtain ⟨after, elsewhere⟩ := tended.replace t p bytes durable
  have replaced := (tended.orderly.replace t p bytes durable).2
  generalize (v.replace t (PageStore.fileIn dir p) bytes durable).2 = w at after elsewhere replaced
  -- a directory among the page files is in the way of the calls and stays, and there are no links
  have blocked : ∀ x : Slot, v.slot? place x = some .directory → w.slot? place x = some .directory := by
    intro x there
    have same := replaced.blocked x
    simp only [Volume.blocked, there, decide_true] at same
    exact of_decide_eq_true same
  refine ⟨leads.keep (fun q there => ?_) (fun q link there => ?_), after, fun q out =>
    elsewhere q (out _) (out _)⟩
  · by_cases page : q = place.child (Slot.page p).name
    · subst page
      exact blocked (.page p) there
    · by_cases gathering : q = place.child (Slot.gathering p).name
      · subst gathering
        exact blocked (.gathering p) there
      · exact (elsewhere q page gathering).trans there
  · have apart : ∀ name, q ≠ place.child name := by
      rintro name rfl
      exact tended.ordinary.unlinked name link there
    exact (elsewhere q (apart _) (apart _)).trans there

end Volume

namespace PageStore

open Volume

/-- A store that has worked on the files in its directory. -/
structure Works (way home place : Path) (s after : PageStore) : Prop where
  dir : after.dir = s.dir
  size : after.pageSize = s.pageSize
  pages : after.pageCount = s.pageCount
  within : Within way home s.dir place s.disk after.disk

variable {way home place : Path} {s after : PageStore}

/-- The ways to the home of the engine and to the page files are there. -/
structure Reached (way home place : Path) (s : PageStore) : Prop where
  leads : s.disk.LeadsTo way home
  tended : Tended s.dir place s.disk

theorem Works.reached (works : Works way home place s after) : after.Reached way home place :=
  ⟨works.within.leads, works.dir ▸ works.within.tended⟩

theorem Works.trans {last : PageStore} (first : Works way home place s after)
    (later : Works way home place after last) : Works way home place s last :=
  ⟨later.dir.trans first.dir, later.size.trans first.size, later.pages.trans first.pages,
    first.within.trans (first.dir ▸ later.within)⟩

theorem Reached.works (reached : s.Reached way home place) (dir : after.dir = s.dir)
    (size : after.pageSize = s.pageSize) (pages : after.pageCount = s.pageCount)
    (disk : after.disk = s.disk) : Works way home place s after := by
  refine ⟨dir, size, pages, ?_⟩
  rw [disk]
  exact .refl reached.leads reached.tended

theorem Reached.replace (reached : s.Reached way home place) (t : Trouble) (page : PageId) (bytes : Bytes)
    (durable : Bool) (dir : after.dir = s.dir) (size : after.pageSize = s.pageSize)
    (pages : after.pageCount = s.pageCount)
    (disk : after.disk = (s.disk.replace t (s.file page) bytes durable).2) :
    Works way home place s after := by
  refine ⟨dir, size, pages, ?_⟩
  rw [disk]
  exact reached.tended.replace_within reached.leads t page bytes durable

theorem Reached.write (reached : s.Reached way home place) (page : PageId) (payload : Bytes)
    (t : Trouble) : Works way home place s (s.write page payload t).2 := by
  rcases s.write_cases page payload t with ⟨fault, refused⟩ | ⟨cause, -, failed⟩ | ⟨-, done⟩
  · rw [refused]
    exact reached.works rfl rfl rfl rfl
  · rw [failed]
    exact reached.replace t page _ false rfl rfl rfl rfl
  · rw [done]
    exact reached.replace t page _ false rfl rfl rfl rfl

theorem Reached.fetch (reached : s.Reached way home place) (page : PageId) :
    Works way home place s (s.fetch page).2 := by
  obtain ⟨cache, counters, same⟩ := s.fetch_frame page
  rw [same]
  exact reached.works rfl rfl rfl rfl

theorem Reached.flush (reached : s.Reached way home place) (page : PageId) (t : Trouble) :
    Works way home place s (s.flush page t).2 := by
  rcases s.flush_cases page t with ⟨fault, refused⟩ | ⟨bytes, cause, -, failed⟩ | ⟨bytes, -, done⟩
  · rw [refused]
    exact reached.works rfl rfl rfl rfl
  · rw [failed]
    exact reached.replace t page bytes true rfl rfl rfl rfl
  · rw [done]
    exact reached.replace t page bytes true rfl rfl rfl rfl

theorem Reached.flushPages (reached : s.Reached way home place) (trouble : PageId → Trouble)
    (pages : List PageId) : Works way home place s
      (Checkpoint.Checkpointer.flushPages (fun page s => s.flush page (trouble page)) pages s).2 := by
  induction pages generalizing s with
  | nil => exact reached.works rfl rfl rfl rfl
  | cons page rest ih =>
    have first := reached.flush page (trouble page)
    exact first.trans (ih first.reached)

end PageStore

namespace Engine

open Volume PageStore

/-- The page files and the logs of an engine are in their places. The log and the checkpoint log hold these
bytes. -/
structure Settled (home : Path) (log marks : Bytes) (e : Engine) : Prop where
  reached : e.store.Reached e.dir home (home.child pagesName)
  log : ∃ k, e.writer.sink = .file k ∧
    e.store.disk.entry? (home.child logName) = some (.file k log.reverse)
  marks : ∃ k, e.checkpointLog = ⟨.file k, []⟩ ∧
    e.store.disk.entry? (home.child checkpointLogName) = some (.file k marks.reverse)
  events : ∃ k reversed, e.events.file = .file k ∧
    e.store.disk.entry? (home.child eventLogName) = some (.file k reversed)

variable {home : Path} {log marks : Bytes} {e after : Engine}

/-- The engine has its directories and its files as before. -/
structure Furnished (e after : Engine) : Prop where
  dir : after.dir = e.dir
  pages : after.store.dir = e.store.dir
  writer : after.writer.sink = e.writer.sink
  checkpoints : after.checkpointLog = e.checkpointLog
  events : after.events.file = e.events.file

theorem Settled.congr (settled : e.Settled home log marks) (furnished : Furnished e after)
    (disk : after.store.disk = e.store.disk) : after.Settled home log marks := by
  obtain ⟨dir, pages, writer, checkpoints, events⟩ := furnished
  refine ⟨⟨?_, ?_⟩, ?_, ?_, ?_⟩
  · rw [dir, disk]
    exact settled.reached.leads
  · rw [pages, disk]
    exact settled.reached.tended
  · rw [writer, disk]
    exact settled.log
  · rw [checkpoints, disk]
    exact settled.marks
  · rw [events, disk]
    exact settled.events

/-- A change among the page files leaves the logs as they are. -/
theorem Settled.within (settled : e.Settled home log marks) (after : Engine) (furnished : Furnished e after)
    (within : Within e.dir home e.store.dir (home.child pagesName) e.store.disk after.store.disk) :
    after.Settled home log marks := by
  have beside : ∀ name, after.store.disk.entry? (home.child name) = e.store.disk.entry? (home.child name) :=
    fun name => within.elsewhere _ (child_ne_grandchild home name pagesName)
  obtain ⟨dir, pages, writer, checkpoints, events⟩ := furnished
  refine ⟨⟨dir ▸ within.leads, pages ▸ within.tended⟩, ?_, ?_, ?_⟩
  · rw [writer, beside]
    exact settled.log
  · rw [checkpoints, beside]
    exact settled.marks
  · rw [events, beside]
    exact settled.events

theorem Settled.works (settled : e.Settled home log marks) (furnished : Furnished e after)
    (works : Works e.dir home (home.child pagesName) e.store after.store) :
    after.Settled home log marks := settled.within after furnished works.within

theorem Settled.onStore (settled : e.Settled home log marks) {store : PageStore}
    (works : Works e.dir home (home.child pagesName) e.store store) :
    Settled home log marks { e with store } :=
  settled.works ⟨rfl, works.dir, rfl, rfl, rfl⟩ works

theorem Settled.apply (settled : e.Settled home log marks) (t : Transaction) (trouble : Trouble) :
    (e.apply t trouble).2.Settled home log marks := by
  unfold Engine.apply Engine.onStore
  cases t.operation.isWrite with
  | true => exact settled.onStore (settled.reached.write t.page t.payload trouble)
  | false => exact settled.onStore (settled.reached.fetch t.page)

/-- What an append to a file beside the page directory does. -/
structure Appends (home : Path) (name : String) (more : Bytes) (v w : Volume) : Prop where
  here : ∀ k reversed, v.entry? (home.child name) = some (.file k reversed) →
    w.entry? (home.child name) = some (.file k (more.reverse ++ reversed))
  elsewhere : ∀ q, q ≠ home.child name → w.entry? q = v.entry? q

theorem Settled.append (settled : e.Settled home log marks) {name : String} {k : Nat} {reversed more : Bytes}
    {disk : Volume} (there : e.store.disk.entry? (home.child name) = some (.file k reversed))
    (appended : e.store.disk.append (.file k) more = .ok disk) :
    PageStore.Reached e.dir home (home.child pagesName) { e.store with disk } ∧
      Appends home name more e.store.disk disk := by
  have tended := settled.reached.tended
  refine ⟨⟨settled.reached.leads.append appended,
    tended.append (child_ne_grandchild home name pagesName) there appended⟩, ⟨?_, ?_⟩⟩
  · intro own bytes here
    cases there.symm.trans here
    exact entry?_append_self there appended
  · exact fun q other => tended.sound.append_other there appended other

theorem Settled.appendLog (settled : e.Settled home log marks) {k : Nat} {more : Bytes} {disk : Volume}
    (sink : e.writer.sink = .file k) (appended : e.store.disk.append (.file k) more = .ok disk)
    (furnished : Furnished e after) (same : after.store.disk = disk) :
    after.Settled home (log ++ more) marks ∧ Appends home logName more e.store.disk disk := by
  obtain ⟨own, writer, there⟩ := settled.log
  cases sink.symm.trans writer
  obtain ⟨reached, appends⟩ := settled.append there appended
  refine ⟨⟨⟨?_, ?_⟩, ⟨k, furnished.writer.trans sink, ?_⟩, ?_, ?_⟩, appends⟩
  · rw [furnished.dir, same]
    exact reached.leads
  · rw [furnished.pages, same]
    exact reached.tended
  · rw [same, appends.here _ _ there, List.reverse_append]
  · rw [furnished.checkpoints, same, appends.elsewhere _ (child_ne_child (by decide))]
    exact settled.marks
  · rw [furnished.events, same, appends.elsewhere _ (child_ne_child (by decide))]
    exact settled.events

theorem Settled.read (settled : e.Settled home log marks) :
    e.store.disk.read (e.logPath : Path) = .ok log ∧
      e.store.disk.read (e.dir.child checkpointLogName : Path) = .ok marks := by
  have file : ∀ {name : String} {k : Nat} {bytes : Bytes}, IsName name →
      name.utf8ByteSize ≤ Route.maxName →
      e.store.disk.entry? (home.child name) = some (.file k bytes.reverse) →
      e.store.disk.read (e.dir.child name : Path) = .ok bytes := by
    intro name k bytes proper short there
    unfold Volume.read openRead Volume.follow
    rw [settled.reached.leads.reach_child proper short (by simp [there])]
    simp only [bind, Except.bind, there, Source.read, List.reverse_reverse]
  obtain ⟨k, -, wal⟩ := settled.log
  obtain ⟨j, -, checkpoints⟩ := settled.marks
  exact ⟨file isName_log short_log wal, file isName_checkpointLog short_checkpointLog checkpoints⟩

end Engine

end PageJournal
