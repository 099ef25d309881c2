import PageJournal.Proofs.Engine.Layout
import PageJournal.Proofs.Volume.Directories

/-! Opening an engine in a directory that holds nothing. Each part makes its own file or directory
there, and the log gets a file that nothing else writes to. -/
namespace PageJournal

namespace Volume

/-- Nothing stands below a place. -/
def BareBelow (v : Volume) (place : Path) : Prop :=
  ∀ x ∈ v.entries, place <+: x.1 → x.1 = place

/-- The way leads to a directory that holds nothing. -/
structure EmptyAt (v : Volume) (dir place : Path) : Prop where
  followed : v.follow dir = .ok place
  directory : v.entry? place = some .directory
  bare : v.BareBelow place

theorem BareBelow.entry? {v : Volume} {place : Path} (bare : v.BareBelow place) {more : Path}
    (below : more ≠ []) : v.entry? (place ++ more) = none := by
  have named : place ++ more ≠ [] := List.append_ne_nil_of_right_ne_nil _ below
  rw [entry?_of_ne_nil v named, List.lookup_eq_none_iff]
  intro x mem
  rw [bne_iff_ne]
  intro same
  have own := bare x mem (same ▸ List.prefix_append place more)
  rw [← same] at own
  exact below (List.append_right_eq_self.mp own)

/-- A file that is opened for appending where nothing stands is made there. -/
theorem LeadsTo.openAppend {v : Volume} {way place : Path} (leads : v.LeadsTo way place)
    {name : String} (proper : IsName name) (short : name.utf8ByteSize ≤ Route.maxName)
    (missing : v.entry? (place.child name) = none) :
    v.openAppend (way.child name : Path) = .ok (v.addFile (place.child name)) := by
  have reached := leads.reach_child proper short (by simp [missing]) .writing
  unfold Volume.openAppend openWrite
  rw [reached]
  simp only [bind, Except.bind, missing]

theorem leadsTo_put {v : Volume} {way place p : Path} (leads : v.LeadsTo way place) (named : p ≠ [])
    (missing : v.entry? p = none) (e : Entry) : (v.put p e).LeadsTo way place := by
  have kept : ∀ q x, v.entry? q = some x → entry? (v.put p e) q = some x := by
    intro q x there
    rw [entry?_put named]
    split
    · next same => rw [same, missing] at there; cases there
    · exact there
  exact leads.keep (fun q there => kept q _ there) (fun q _ there => kept q _ there)

theorem LeadsTo.addFile {v : Volume} {way place p : Path} (leads : v.LeadsTo way place)
    (named : p ≠ []) (missing : v.entry? p = none) : (v.addFile p).2.LeadsTo way place := by
  have kept : ∀ q x, v.entry? q = some x → entry? (v.addFile p).2 q = some x := by
    intro q x there
    rw [entry?_addFile v named]
    split
    · next same =>
      rw [same, missing] at there
      cases there
    · exact there
  exact leads.keep (fun q there => kept q _ there) (fun q _ there => kept q _ there)

/-- A new file beside the page files is none of them. -/
theorem Housed.addFile {v : Volume} {dir place p : Path} {k own : Nat}
    (housed : v.Housed dir place k) (named : p ≠ []) (missing : v.entry? p = none)
    (beside : ∀ name, p ≠ place.child name) (which : own = k ∨ own = v.nextIdentity) :
    (v.addFile p).2.Housed dir place own := by
  refine ⟨housed.leads.addFile named missing, ?_, fun name e there => ?_⟩
  · show own < v.nextIdentity + 1
    have old := housed.old
    omega
  · rw [entry?_addFile v named, if_neg (Ne.symm (beside name))] at there
    have plain := housed.plain name e there
    rcases which with rfl | rfl
    · exact plain.mono (Nat.le_succ _)
    · cases e with
      | file i reversed => exact ⟨Nat.ne_of_lt plain.2, Nat.lt_succ_of_lt plain.2⟩
      | directory => trivial
      | link target => exact plain
      | device d => trivial

end Volume

theorem PageStore.housed_discover {dir place : Path} {k : Nat} {names : List String} {v after : Volume}
    {known : List PageId} (housed : v.Housed dir place k)
    (done : PageStore.discover dir v names = .ok (known, after)) :
    Volume.Spares place k v after ∧ after.Housed dir place k := by
  induction names generalizing v known with
  | nil =>
    cases done
    exact ⟨.refl place k after, housed⟩
  | cons name rest ih =>
    rcases PageStore.discover_cons done with ⟨-, later⟩ | ⟨w, temporary, removed, later⟩ | ⟨_, -, -, later⟩
    · exact ih housed later
    · obtain ⟨first, housed⟩ :=
        Volume.safe_remove (Volume.isName_of_isTemporary temporary) v w housed removed
      obtain ⟨later, housed⟩ := ih housed later
      exact ⟨first.trans later, housed⟩
    · exact ih housed later

/-- A page store that is opened touches nothing but its own files. -/
theorem PageStore.openAt_housed {dir place : Path} {k : Nat} {v made after : Volume}
    (directory : v.createDirectories dir = .ok made) (housed : made.Housed dir place k) {c : Config}
    {cache : Cache} {counters : Counters} {s : PageStore}
    (opened : PageStore.openAt c dir cache counters v = (.ok s, after)) :
    s.dir = dir ∧ s.disk = after ∧ Volume.Spares place k made after ∧ after.Housed dir place k := by
  obtain ⟨_, names, known, w, made', -, found, formatted, rfl⟩ := PageStore.openAt_eq_ok opened
  cases directory.symm.trans made'
  obtain ⟨first, housed⟩ := PageStore.housed_discover housed found
  have later := PageStore.housed_format housed .none c.pageSize known (PageStore.configured c)
  rw [formatted] at later
  exact ⟨rfl, rfl, first.trans later.1, later.2⟩

/-- A page store that is opened where nothing stands makes its directory and its files in it. -/
theorem PageStore.openAt_bare {v after : Volume} {way home : Path} (leads : v.LeadsTo way home)
    {name : String} (proper : Volume.IsName name) (short : name.utf8ByteSize ≤ Route.maxName)
    (missing : v.entry? (home.child name) = none) (bare : v.BareBelow (home.child name)) {k : Nat}
    (old : k < v.nextIdentity) {c : Config} {cache : Cache} {counters : Counters} {s : PageStore}
    (opened : PageStore.openAt c (way.child name) cache counters v = (.ok s, after)) :
    s.dir = way.child name ∧ s.disk = after ∧
      Volume.Spares (home.child name) k (v.put (home.child name) .directory) after ∧
      after.Housed (way.child name) (home.child name) k := by
  have named := Volume.child_ne_nil home name
  have directory := Volume.entry?_put_self (v := v) named .directory
  have inside := (Volume.leadsTo_put leads named missing .directory).child proper short directory
  have made := leads.createDirectories proper short (by simp [missing])
  rw [missing] at made
  refine PageStore.openAt_housed made ⟨inside, old, fun n e there => ?_⟩ opened
  have apart : (home.child name).child n ≠ home.child name := by simp [Path.child]
  rw [Volume.entry?_put named, if_neg apart] at there
  rw [Path.child, bare.entry? (List.cons_ne_nil _ _)] at there
  cases there

namespace Engine

open Volume

/-- An engine that has just been opened in an empty directory. -/
structure Fresh (home : Path) (k : Nat) (e : Engine) : Prop where
  layout : e.Layout home k []
  waiting : e.buffer.records = []
  lsn : e.sequence.next = 1
  transaction : e.nextTransaction = 1

theorem isName_checkpointLog : IsName checkpointLogName := ⟨by decide, by decide⟩

theorem short_checkpointLog : checkpointLogName.utf8ByteSize ≤ Route.maxName := by decide

theorem isName_eventLog : IsName eventLogName := ⟨by decide, by decide⟩

theorem short_eventLog : eventLogName.utf8ByteSize ≤ Route.maxName := by decide

theorem child_ne_child {home : Path} {a b : String} (other : a ≠ b) : home.child a ≠ home.child b := by
  simpa [Path.child] using other

theorem child_ne_grandchild (home : Path) (a b : String) :
    ∀ name, home.child a ≠ (home.child b).child name := by
  intro name same
  have length := congrArg List.length same
  simp [Path.child] at length

/-- The parts of an engine that are opened where nothing but its event log stands. -/
theorem openParts_beside {c : Config} {dir home : Path} {v after : Volume} {parts : Parts} {j : Nat}
    (leads : v.LeadsTo dir home) (old : j < v.nextIdentity)
    (missing : ∀ name, name ≠ eventLogName → v.entry? (home.child name) = none)
    (bare : v.BareBelow (home.child pagesName))
    (opened : openParts c dir v = (.ok parts, after)) :
    ∃ k, j ≠ k ∧ parts.store.dir = dir.child pagesName ∧ parts.writer.sink = .file k ∧
      parts.store.disk.LeadsTo dir home ∧
      parts.store.disk.Housed (dir.child pagesName) (home.child pagesName) k ∧
      parts.store.disk.entry? (home.child logName) = some (.file k []) := by
  have named := child_ne_nil home
  have noPages := missing pagesName (by decide)
  unfold openParts at opened
  dsimp only at opened
  split at opened
  · cases opened
  · next store w stored =>
    obtain ⟨place, -, spares, housed⟩ :=
      PageStore.openAt_bare leads isName_pages short_pages noPages bare old stored
    have leadsPages : w.LeadsTo dir home :=
      spares.leadsTo (leadsTo_put leads (named pagesName) noPages .directory)
    have noFile : ∀ name, name ≠ eventLogName → name ≠ pagesName →
        w.entry? (home.child name) = none := by
      intro name noEvents noPages
      apply spares.outside _ (child_ne_grandchild home name pagesName)
      rw [entry?_put (named pagesName), if_neg (child_ne_child noPages)]
      exact missing name noEvents
    have noLog := noFile logName (by decide) (by decide)
    rw [leadsPages.openAppend isName_log short_log noLog] at opened
    -- the log's file is the next one
    have differs : j ≠ w.nextIdentity := Nat.ne_of_lt housed.old
    have logged := entry?_addFile w (named logName)
    have leadsLog := leadsPages.addFile (named logName) noLog
    have housedLog := housed.addFile (named logName) noLog
      (child_ne_grandchild home logName pagesName) (.inr rfl)
    have noCheckpoints : Volume.entry? (w.addFile (home.child logName)).2
        (home.child checkpointLogName) = none := by
      rw [logged, if_neg (child_ne_child (by decide))]
      exact noFile checkpointLogName (by decide) (by decide)
    have last := leadsLog.openAppend isName_checkpointLog short_checkpointLog noCheckpoints
    simp only [Checkpoint.LogFile.openAt, last, bind, Except.bind] at opened
    cases opened
    refine ⟨w.nextIdentity, differs, place, rfl,
      leadsLog.addFile (named checkpointLogName) noCheckpoints,
      housedLog.addFile (named checkpointLogName) noCheckpoints
        (child_ne_grandchild home checkpointLogName pagesName) (.inl rfl), ?_⟩
    dsimp only
    rw [entry?_addFile _ (named checkpointLogName), if_neg (child_ne_child (by decide)), logged,
      if_pos rfl]

/-- An engine that is opened in an empty directory is a fresh one. -/
theorem fresh_openWith {c : Config} {clock : Clock} {v made after : Volume} {dir home : Path}
    {e : Engine} (directory : makeDirectory c v = .ok (dir, made)) (empty : made.EmptyAt dir home)
    (opened : openWith c clock v = (.ok e, after)) : ∃ k, e.Fresh home k := by
  have leads := leadsTo_of_follow empty.followed empty.directory
  have named := child_ne_nil home
  have nothing : ∀ name, made.entry? (home.child name) = none :=
    fun name => empty.bare.entry? (List.cons_ne_nil name [])
  have noEvents := nothing eventLogName
  have leads' := leads.addFile (named eventLogName) noEvents
  have entries := entry?_addFile made (named eventLogName)
  have missing : ∀ name, name ≠ eventLogName →
      Volume.entry? (made.addFile (home.child eventLogName)).2 (home.child name) = none := by
    intro name other
    rw [entries, if_neg (child_ne_child other)]
    exact nothing name
  have bare : (made.addFile (home.child eventLogName)).2.BareBelow (home.child pagesName) := by
    intro x mem below
    exfalso
    rcases List.mem_cons.mp mem with rfl | old
    · have same := below.eq_of_length (by simp [Path.child])
      exact child_ne_child (by decide) same
    · have length := congrArg List.length (empty.bare x (List.mem_filter.mp old).1
        ((List.prefix_append home [pagesName]).trans below))
      have longer := below.length_le
      simp [Path.child] at longer
      omega
  have none := missing logName (by decide)
  have noLog := leads'.find?_child isName_log short_log (by simp [none])
  have scanned : Log.verifyAt (made.addFile (home.child eventLogName)).2 (dir.child logName) =
      .ok {} := by
    simp only [Log.verifyAt, Log.recoverAt, contains, noLog, none]
    rfl
  have events := leads.openAppend isName_eventLog short_eventLog noEvents
  unfold openWith at opened
  split at opened
  · cases opened
  · simp only [directory, EventLog.openAt, events, bind, Except.bind, scanned] at opened
    split at opened
    · cases opened
    · next parts w done =>
      obtain ⟨k, differs, place, writer, leads, housed, log⟩ :=
        openParts_beside leads' (Nat.lt_succ_self made.nextIdentity) missing bare done
      cases opened
      refine ⟨k, ⟨leads, place ▸ housed, log, writer, ?_⟩, rfl, rfl, rfl⟩
      exact fun same => differs (Handle.file.inj same)

end Engine

end PageJournal
