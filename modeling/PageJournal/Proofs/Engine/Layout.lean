import PageJournal.Engine.Lifecycle
import PageJournal.Proofs.Page.Housed

/-! Where an engine's files are. Its log is a file of its own, which the page files and the events
never touch, so what the log holds is what the log writer appended. -/
namespace PageJournal.Engine

open Volume

theorem isName_log : IsName logName := ⟨by decide, by decide⟩

theorem short_log : logName.utf8ByteSize ≤ Route.maxName := by decide

theorem isName_pages : IsName pagesName := ⟨by decide, by decide⟩

theorem short_pages : pagesName.utf8ByteSize ≤ Route.maxName := by decide

/-- The log of the engine is the file `k`, in the directory `home`, and holds these bytes. -/
structure Layout (home : Path) (k : Nat) (bytes : Bytes) (e : Engine) : Prop where
  leads : e.store.disk.LeadsTo e.dir home
  housed : e.store.disk.Housed e.store.dir (home.child pagesName) k
  log : e.store.disk.entry? (home.child logName) = some (.file k bytes.reverse)
  writer : e.writer.sink = .file k
  events : e.events.file ≠ .file k

variable {home : Path} {k : Nat} {bytes : Bytes} {e : Engine}

/-- Only the disk and the places of the files matter. -/
theorem Layout.congr (layout : e.Layout home k bytes) {after : Engine}
    (disk : after.store.disk = e.store.disk) (dir : after.dir = e.dir)
    (pages : after.store.dir = e.store.dir) (writer : after.writer.sink = e.writer.sink)
    (events : after.events.file = e.events.file) : after.Layout home k bytes where
  leads := by rw [disk, dir]; exact layout.leads
  housed := by rw [disk, pages]; exact layout.housed
  log := by rw [disk]; exact layout.log
  writer := writer.trans layout.writer
  events := by rw [events]; exact layout.events

/-- Calls that keep what is to be kept keep the log. -/
theorem Layout.spared (layout : e.Layout home k bytes) {after : Engine}
    (spares : Spares (home.child pagesName) k e.store.disk after.store.disk)
    (housed : after.store.disk.Housed after.store.dir (home.child pagesName) k)
    (dir : after.dir = e.dir) (writer : after.writer.sink = e.writer.sink)
    (events : after.events.file = e.events.file) : after.Layout home k bytes where
  leads := by rw [dir]; exact spares.leadsTo layout.leads
  housed := housed
  log := spares.kept _ _ layout.log rfl
  writer := writer.trans layout.writer
  events := by rw [events]; exact layout.events

theorem Layout.found (layout : e.Layout home k bytes) (purpose : Purpose) :
    e.store.disk.reach purpose (e.logPath : Path) = .ok (home.child logName) :=
  layout.leads.reach_child isName_log short_log (by simp [layout.log]) purpose

theorem Layout.read (layout : e.Layout home k bytes) :
    e.store.disk.read (e.logPath : Path) = .ok bytes := by
  unfold Volume.read openRead Volume.follow
  rw [layout.found]
  simp only [bind, Except.bind, layout.log, Source.read, List.reverse_reverse]

theorem Layout.openAppend (layout : e.Layout home k bytes) :
    e.store.disk.openAppend (e.logPath : Path) = .ok (.file k, e.store.disk) := by
  unfold Volume.openAppend openWrite
  rw [layout.found]
  simp only [bind, Except.bind, layout.log]
  rfl

/-- Bytes that are appended to the log's file stand at the end of the log. -/
theorem Layout.append (layout : e.Layout home k bytes) {more : Bytes} {after : Engine}
    (appended : e.store.disk.append (.file k) more = .ok after.store.disk)
    (dir : after.dir = e.dir) (pages : after.store.dir = e.store.dir)
    (writer : after.writer.sink = e.writer.sink) (events : after.events.file = e.events.file) :
    after.Layout home k (bytes ++ more) := by
  have entries := entry?_append appended
  have identity := nextIdentity_append appended
  have kept : ∀ p x, e.store.disk.entry? p = some x → (∀ own reversed, x ≠ .file own reversed) →
      after.store.disk.entry? p = some x := by
    intro p x there other
    rw [entries, there]
    cases x with
    | file own reversed => exact absurd rfl (other own reversed)
    | directory => rfl
    | link target => rfl
    | device d => rfl
  have leads : ∀ {way target}, e.store.disk.LeadsTo way target →
      after.store.disk.LeadsTo way target :=
    fun leads => leads.keep (fun p there => kept p _ there nofun) (fun p _ there => kept p _ there nofun)
  refine ⟨dir ▸ leads layout.leads, ?_, ?_, writer.trans layout.writer, events ▸ layout.events⟩
  · rw [pages]
    refine ⟨leads layout.housed.leads, identity ▸ layout.housed.old, fun name x there => ?_⟩
    rw [entries, Option.map_eq_some_iff] at there
    obtain ⟨before, there, rfl⟩ := there
    have plain := layout.housed.plain name before there
    rw [identity]
    cases before with
    | file own reversed =>
      rw [Entry.extended, if_neg plain.1]
      exact plain
    | directory => exact plain
    | link target => exact plain
    | device d => exact plain
  · rw [entries, layout.log]
    simp [Entry.extended]

theorem Layout.count (layout : e.Layout home k bytes) (c : Counter) :
    (e.count c).Layout home k bytes := layout.congr rfl rfl rfl rfl rfl

theorem Layout.note (layout : e.Layout home k bytes) (component message : String) :
    (e.note component message).Layout home k bytes := layout.congr rfl rfl rfl rfl rfl

theorem Layout.requestStop (layout : e.Layout home k bytes) : e.requestStop.Layout home k bytes := by
  unfold Engine.requestStop
  split
  · exact layout.congr rfl rfl rfl rfl rfl
  · exact (layout.note _ _).congr rfl rfl rfl rfl rfl

theorem flush_cases (log : EventLog) (v : Volume) :
    (log.flush v).1.file = log.file ∧
      ((log.flush v).2 = v ∨ ∃ more, v.append log.file more = .ok (log.flush v).2) := by
  unfold EventLog.flush
  split
  · exact ⟨rfl, .inl rfl⟩
  · split
    · next appended => exact ⟨rfl, .inr ⟨_, appended⟩⟩
    · exact ⟨rfl, .inl rfl⟩

theorem spill_cases (log : EventLog) (v : Volume) :
    (log.spill v).1.file = log.file ∧
      ((log.spill v).2 = v ∨ ∃ more, v.append log.file more = .ok (log.spill v).2) := by
  unfold EventLog.spill
  dsimp only
  split
  · exact ⟨rfl, .inl rfl⟩
  · split
    · next appended => exact ⟨rfl, .inr ⟨_, appended⟩⟩
    · exact ⟨rfl, .inl rfl⟩

theorem Layout.flushEvents (layout : e.Layout home k bytes) :
    e.flushEvents.Layout home k bytes := by
  obtain ⟨file, same | ⟨more, appended⟩⟩ := flush_cases e.events e.store.disk
  · exact layout.congr same rfl rfl rfl file
  · obtain ⟨spares, housed⟩ := layout.housed.append layout.events appended
    exact layout.spared spares housed rfl rfl file

/-- Whatever becomes of a transaction's operation, it leaves the log alone. -/
theorem Layout.apply (layout : e.Layout home k bytes) (t : Transaction) (trouble : Trouble) :
    (e.apply t trouble).2.Layout home k bytes := by
  have result : ∃ store, (e.apply t trouble).2 = { e with store } ∧
      PageStore.Keeps (home.child pagesName) k e.store store := by
    unfold Engine.apply onStore
    cases t.operation.isWrite with
    | true => exact ⟨_, rfl, PageStore.keeps_write layout.housed t.page t.payload trouble⟩
    | false => exact ⟨_, rfl, PageStore.keeps_fetch layout.housed t.page⟩
  obtain ⟨store, same, kept⟩ := result
  rw [same]
  exact layout.spared kept.spares (kept.dir ▸ kept.housed) rfl rfl rfl

end PageJournal.Engine
