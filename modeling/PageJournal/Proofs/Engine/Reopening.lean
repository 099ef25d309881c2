import PageJournal.Proofs.Engine.Crash
import PageJournal.Proofs.Log.Continued

/-! Opening an engine where there is a log. Its numbers go on behind those of the log, and its records are
written behind the bytes that are there. -/
namespace PageJournal

open Log

namespace Engine

open Volume

/-- What an engine leaves in its directory: a log, and beside it and among the pages neither a link nor
another name of the log's file. -/
structure Remains (dir home : Path) (k : Nat) (bytes : Bytes) (v : Volume) : Prop where
  leads : v.LeadsTo dir home
  old : k < v.nextIdentity
  log : v.entry? (home.child logName) = some (.file k bytes.reverse)
  beside : ∀ name, name ≠ logName → ∀ e, v.entry? (home.child name) = some e → Plain k v.nextIdentity e
  pages : ∀ name e, v.entry? ((home.child pagesName).child name) = some e → Plain k v.nextIdentity e

variable {dir home : Path} {k : Nat} {bytes : Bytes} {v : Volume}

theorem Remains.noLink (remains : Remains dir home k bytes v) (name : String) (link : Route) :
    v.entry? (home.child name) ≠ some (.link link) := by
  intro there
  by_cases own : name = logName
  · rw [own, remains.log] at there
    cases there
  · exact remains.beside name own _ there

/-- What is put where nothing stood leaves the rest alone. -/
theorem Remains.add (remains : Remains dir home k bytes v) {p : Path} (missing : v.entry? p = none)
    {e : Entry} {w : Volume} (entries : ∀ q, w.entry? q = if q = p then some e else v.entry? q)
    (identity : v.nextIdentity ≤ w.nextIdentity) (plain : Plain k w.nextIdentity e) :
    Remains dir home k bytes w := by
  have kept : ∀ q x, v.entry? q = some x → w.entry? q = some x := by
    intro q x there
    have other : q ≠ p := fun same => by simp [same, missing] at there
    rw [entries, if_neg other, there]
  have all : ∀ q, (∀ x, v.entry? q = some x → Plain k v.nextIdentity x) →
      ∀ x, w.entry? q = some x → Plain k w.nextIdentity x := by
    intro q before x there
    rw [entries] at there
    split at there
    · cases there
      exact plain
    · exact (before x there).mono identity
  exact {
    leads := remains.leads.keep (fun q there => kept q _ there) (fun q _ there => kept q _ there)
    old := Nat.lt_of_lt_of_le remains.old identity
    log := kept _ _ remains.log
    beside := fun name other => all _ (remains.beside name other)
    pages := fun name => all _ (remains.pages name) }

/-- A file beside the log is opened or made without touching the log. -/
theorem Remains.openBeside (remains : Remains dir home k bytes v) {name : String} (proper : IsName name)
    (short : name.utf8ByteSize ≤ Route.maxName) (other : name ≠ logName) {h : Handle} {w : Volume}
    (opened : v.openAppend (dir.child name : Path) = .ok (h, w)) :
    h ≠ .file k ∧ Remains dir home k bytes w ∧ ∀ q e, v.entry? q = some e → w.entry? q = some e := by
  have reached := remains.leads.reach_child proper short (remains.noLink name) .writing
  unfold Volume.openAppend openWrite at opened
  rw [reached] at opened
  rcases there : v.entry? (home.child name) with _ | (⟨i, content⟩ | _ | link | d)
  all_goals simp only [bind, Except.bind, there] at opened
  all_goals cases opened
  · have fresh : v.nextIdentity ≠ k := Nat.ne_of_gt remains.old
    have entries := entry?_addFile v (child_ne_nil home name)
    refine ⟨by simpa [addFile] using fresh,
      remains.add there entries (Nat.le_succ _) ⟨fresh, Nat.lt_succ_self _⟩, fun q e known => ?_⟩
    have apart : q ≠ home.child name := fun same => by simp [same, there] at known
    exact (entries q).trans ((if_neg apart).trans known)
  · have plain := remains.beside name other _ there
    exact ⟨by simpa using plain.1, remains, fun _ _ known => known⟩
  · exact ⟨nofun, remains, fun _ _ known => known⟩

/-- The directory of the pages is there or is made. -/
theorem Remains.makePages (remains : Remains dir home k bytes v) {w : Volume}
    (made : v.createDirectories (dir.child pagesName) = .ok w) :
    Remains dir home k bytes w ∧ w.Housed (dir.child pagesName) (home.child pagesName) k := by
  have named := child_ne_nil home pagesName
  rw [remains.leads.createDirectories isName_pages short_pages (remains.noLink pagesName)] at made
  have found : Remains dir home k bytes w ∧ w.entry? (home.child pagesName) = some .directory := by
    rcases there : v.entry? (home.child pagesName) with _ | (_ | _ | _ | _)
    all_goals simp only [there] at made
    all_goals cases made
    · exact ⟨remains.add there (entry?_put named .directory) (Nat.le_refl _) trivial,
        entry?_put_self named .directory⟩
    · exact ⟨remains, there⟩
  obtain ⟨remains, directory⟩ := found
  exact ⟨remains, remains.leads.child isName_pages short_pages directory, remains.old, remains.pages⟩

theorem Remains.spared (remains : Remains dir home k bytes v) {w : Volume}
    (spares : Spares (home.child pagesName) k v w) : Remains dir home k bytes w where
  leads := spares.leadsTo remains.leads
  old := Nat.lt_of_lt_of_le remains.old spares.identity
  log := spares.kept _ _ remains.log rfl
  beside name other := spares.plain _ (remains.beside name other)
  pages name := spares.plain _ (remains.pages name)

theorem Remains.openLog (remains : Remains dir home k bytes v) :
    v.openAppend (dir.child logName : Path) = .ok (.file k, v) := by
  unfold Volume.openAppend openWrite
  rw [remains.leads.reach_child isName_log short_log (by simp [remains.log])]
  simp only [bind, Except.bind, remains.log]
  rfl

theorem Remains.verifyAt (remains : Remains dir home k bytes v) :
    Log.verifyAt v (dir.child logName) = .ok (recover bytes).2 := by
  have noLink : ∀ link, v.entry? (home.child logName) ≠ some (.link link) := by simp [remains.log]
  have found := remains.leads.find?_child isName_log short_log noLink
  have read : v.read (dir.child logName : Path) = .ok bytes := by
    unfold Volume.read openRead Volume.follow
    rw [remains.leads.reach_child isName_log short_log noLink]
    simp only [bind, Except.bind, remains.log, Source.read, List.reverse_reverse]
  simp only [Log.verifyAt, recoverAt, contains, found, remains.log, read]
  rfl

theorem Remains.openParts (remains : Remains dir home k bytes v) {c : Config} {parts : Parts}
    {after : Volume} (opened : Engine.openParts c dir v = (.ok parts, after)) :
    parts.writer.sink = .file k ∧ Remains dir home k bytes parts.store.disk ∧
      parts.store.disk.Housed parts.store.dir (home.child pagesName) k := by
  unfold Engine.openParts at opened
  dsimp only at opened
  split at opened
  · cases opened
  · next store w stored =>
    obtain ⟨made, -, -, -, makes, -⟩ := PageStore.openAt_eq_ok stored
    obtain ⟨remains, housed⟩ := remains.makePages makes
    obtain ⟨place, -, spares, housed⟩ := PageStore.openAt_housed makes housed stored
    have remains := remains.spared spares
    rw [remains.openLog] at opened
    dsimp only at opened
    split at opened
    · cases opened
    · next last =>
      obtain ⟨⟨file, disk⟩, checkpoints, same⟩ := bind_eq_ok.mp last
      obtain ⟨-, remains, kept⟩ :=
        remains.openBeside isName_checkpointLog short_checkpointLog (by decide) checkpoints
      cases same
      cases opened
      have leads := remains.leads.child isName_pages short_pages (kept _ _ housed.leads.directory)
      exact ⟨rfl, remains, place ▸ leads, remains.old, remains.pages⟩

/-- An engine that has just been opened on a log. -/
structure Resumed (home : Path) (k : Nat) (bytes : Bytes) (e : Engine) : Prop where
  layout : e.Layout home k bytes
  waiting : e.buffer.records = []
  sequence : e.sequence = .startingAt ((recover bytes).2.lastLsn + 1)
  transaction : e.nextTransaction = (recover bytes).2.lastTransaction + 1
  recovery : e.recovery = (recover bytes).2

theorem resumed_openWith {c : Config} {clock : Clock} {made after : Volume} {e : Engine}
    (directory : makeDirectory c v = .ok (dir, made)) (remains : Remains dir home k bytes made)
    (opened : openWith c clock v = (.ok e, after)) : e.Resumed home k bytes := by
  unfold openWith at opened
  split at opened
  · cases opened
  · rw [directory] at opened
    dsimp only at opened
    split at opened
    · cases opened
    · next events w first =>
      obtain ⟨⟨file, disk⟩, opens, same⟩ := bind_eq_ok.mp first
      obtain ⟨other, remains, -⟩ :=
        remains.openBeside isName_eventLog short_eventLog (by decide) opens
      cases same
      rw [remains.verifyAt] at opened
      dsimp only at opened
      split at opened
      · cases opened
      · next parts w done =>
        obtain ⟨writer, remains, housed⟩ := remains.openParts done
        cases opened
        refine ⟨⟨remains.leads, housed, remains.log, writer, ?_⟩, rfl, rfl, rfl, rfl⟩
        cases scanEvent? (recover bytes).2 <;> exact other

end Engine

namespace Session

open Engine

variable {home : Path} {k : Nat} {old : Bytes} {e : Engine} {s : Session}

/-- The numbers of a log go on where it ends. -/
def marks (old : Bytes) : Marks :=
  ⟨(recover old).2.lastLsn.toNat, (recover old).2.lastTransaction.toNat⟩

theorem Numbered.follows {j : Nat} (numbered : s.Numbered (marks old) j)
    (few : (marks old).Room s.stages.length) : Follows old s.added where
  lsns r mem := by
    rw [UInt64.lt_iff_toNat_lt]
    exact (numbered.below r mem).1
  transactions r mem := by
    obtain ⟨i, inside, own⟩ := numbered.owned r mem
    rw [UInt64.lt_iff_toNat_lt, own, Marks.toNat_idAt few inside]
    simp only [marks]
    omega
  distinct := numbered.distinct
  ordered id := by simpa using numbered.inOrder s.added.length id

theorem numbered_behind (sequence : e.sequence = .startingAt ((recover old).2.lastLsn + 1))
    (transaction : e.nextTransaction = (recover old).2.lastTransaction + 1) :
    (start e).Numbered (marks old) (marks old).lsn := by
  have succ : ∀ n : UInt64, n + 1 = UInt64.ofNat (n.toNat + 1) := fun n => by simp
  refine numbered_start_from (fun fits => ?_) (transaction.trans (succ _))
  have positive : (recover old).2.lastLsn + 1 ≠ 0 := by
    intro zero
    have nat := congrArg UInt64.toNat zero
    simp only [marks] at fits
    rw [succ, UInt64.toNat_ofNat', Nat.mod_eq_of_lt fits] at nat
    exact Nat.succ_ne_zero _ nat
  rw [sequence]
  exact (if_neg positive).trans (succ _)

theorem numbered_resumed (resumed : e.Resumed home k old) :
    (start e).Numbered (marks old) (marks old).lsn :=
  numbered_behind resumed.sequence resumed.transaction

/-- Once a close has returned, everything that was added stands behind the old bytes. -/
theorem read_resumed (resumed : e.Resumed home k old) (run : Runs (start e) s)
    (last : s.added.length ∈ s.closed) :
    s.engine.store.disk.read s.engine.logPath = .ok (old ++ s.added.flatMap Record.line) := by
  obtain ⟨done, parts, standing⟩ := standing_runs (standing_start resumed.layout resumed.waiting) run
  have front : done <+: s.added := by
    rw [standing.whole, List.append_assoc]
    exact List.prefix_append _ _
  have all := front.eq_of_length (Nat.le_antisymm front.length_le (standing.closed _ last))
  rw [← all]
  exact standing.layout.read

theorem follows_resumed (resumed : e.Resumed home k old) (run : Runs (start e) s)
    (room : (marks old).Room s.stages.length) : Follows old s.added := by
  obtain ⟨j, numbered⟩ := numbered_runs_from (numbered_resumed resumed) run room
  exact numbered.follows room

/-- An engine that is opened on a log and closed again leaves a log that begins with the old bytes and
ends with the lines of what was added. Recovery gives what it gave before and then the new records, with
nothing more damaged, dropped or out of order, exactly if the last line of the old log had its end or
nothing was added. Behind an open line the first new record is lost, and so is the record of that line.
The numbers must not come to the end of their words. -/
theorem reopened_continues_iff {c : Config} {clock : Clock} {v made after : Volume} {dir : Path}
    (directory : makeDirectory c v = .ok (dir, made)) (remains : Remains dir home k old made)
    (opened : openWith c clock v = (.ok e, after)) (run : Runs (start e) s)
    (last : s.added.length ∈ s.closed) (room : (marks old).Room s.stages.length) :
    e.recovery = (recover old).2 ∧ ∃ bytes, s.engine.store.disk.read s.engine.logPath = .ok bytes ∧
      bytes = old ++ s.added.flatMap Record.line ∧
      (Continues old s.added bytes ↔ Closed old ∨ s.added = []) ∧
      ∀ front tail r rest, old = front ++ tail → Closed front → tail ≠ [] → lineFeed ∉ tail →
        s.added = r :: rest → recovered bytes = recovered front ++ rest := by
  have resumed := resumed_openWith directory remains opened
  have follows := follows_resumed resumed run room
  refine ⟨resumed.recovery, _, read_resumed resumed run last, rfl, continues_iff follows, ?_⟩
  intro front tail r rest whole closed torn noFeed some
  rw [some] at follows ⊢
  exact (recovered_torn whole closed torn noFeed follows).1

/-- A directory that holds nothing but a log. -/
def logOnly (old : Bytes) : Volume :=
  ⟨[(["data"], .directory), (["data", "wal.log"], .file 0 old.reverse)], 1⟩

theorem remains_logOnly (old : Bytes) : Remains ["data"] ["data"] 0 old (logOnly old) where
  leads := Volume.leadsTo_of_follow (by rfl) (by rfl)
  old := Nat.zero_lt_one
  log := by rfl
  beside := by
    intro name other e there
    have apart : (name == "wal.log") = false := by simpa [logName] using other
    simp [logOnly, Volume.entry?, Path.child, List.lookup_cons, apart] at there
  pages := by
    intro name e there
    simp [logOnly, Volume.entry?, Path.child, pagesName, List.lookup_cons] at there

/-- A log with this content, and a transaction that is run and closed behind it. -/
theorem exists_inserted {bytes : Bytes} (first : marks bytes = ⟨1, 1⟩)
    (computed : ((openWith onePage (.still 5) (logOnly bytes)).1.map fun e =>
      ((inserted e).buffer.records.length, (inserted e).close.1.isOk)).toOption = some (2, true)) :
    ∃ (after : Volume) (e : Engine) (s : Session),
      makeDirectory onePage (logOnly bytes) = .ok (["data"], logOnly bytes) ∧
      openWith onePage (.still 5) (logOnly bytes) = (.ok e, after) ∧ Runs (start e) s ∧
      s.added.length = 2 ∧ s.added.length ∈ s.closed ∧ (marks bytes).Room s.stages.length := by
  have directory : makeDirectory onePage (logOnly bytes) = .ok (["data"], logOnly bytes) := by rfl
  have room : (marks bytes).Room 1 := by
    rw [first]
    exact ⟨by decide, by decide⟩
  rcases opened : openWith onePage (.still 5) (logOnly bytes) with ⟨fault | e, after⟩
  · rw [opened] at computed
    cases computed
  · rw [opened] at computed
    have counts := Option.some.inj computed
    simp only [Prod.mk.injEq] at counts
    obtain ⟨two, closes⟩ := counts
    have nothing := (resumed_openWith directory (remains_logOnly bytes) opened).waiting
    exact ⟨after, e, _, directory, rfl, runs_inserted_closed nothing closes, two,
      List.mem_singleton_self _, room⟩

/-- Behind a whole line the log goes on. -/
theorem reopened_continues_closed :
    let old := (Record.numbered 1).line
    ∃ (after : Volume) (e : Engine) (s : Session),
      makeDirectory onePage (logOnly old) = .ok (["data"], logOnly old) ∧
      Remains ["data"] ["data"] 0 old (logOnly old) ∧
      openWith onePage (.still 5) (logOnly old) = (.ok e, after) ∧ Runs (start e) s ∧
      s.added.length ∈ s.closed ∧ (marks old).Room s.stages.length ∧ s.added.length = 2 ∧
      Continues old s.added (old ++ s.added.flatMap Record.line) := by
  intro old
  have first : marks old = ⟨1, 1⟩ := by decide +kernel
  obtain ⟨after, e, s, directory, opened, run, two, last, room⟩ :=
    exists_inserted first (by decide +kernel)
  obtain ⟨-, _, -, rfl, continues, -⟩ :=
    reopened_continues_iff directory (remains_logOnly old) opened run last room
  exact ⟨after, e, s, directory, remains_logOnly old, opened, run, last, room, two,
    continues.mpr (.inl (Record.closed_line _))⟩

/-- A record whose line lacks only its end is read when the engine is opened, and is gone when it is
closed. -/
theorem reopened_record_lost :
    let old := (Record.numbered 1).text
    ∃ (after : Volume) (e : Engine) (s : Session),
      openWith onePage (.still 5) (logOnly old) = (.ok e, after) ∧ Runs (start e) s ∧
      s.added.length ∈ s.closed ∧ recovered old = [.numbered 1] ∧
      ∃ bytes, s.engine.store.disk.read s.engine.logPath = .ok bytes ∧
        recovered bytes = s.added.drop 1 ∧ recovered bytes ≠ recovered old ++ s.added := by
  intro old
  have first : marks old = ⟨1, 1⟩ := by decide +kernel
  obtain ⟨after, e, s, directory, opened, run, two, last, room⟩ :=
    exists_inserted first (by decide +kernel)
  have resumed := resumed_openWith directory (remains_logOnly old) opened
  have follows := follows_resumed resumed run room
  obtain ⟨r, rest, some⟩ := List.exists_cons_of_length_pos (Nat.lt_of_lt_of_eq Nat.two_pos two.symm)
  rw [some] at follows
  have lost : recovered (old ++ (r :: rest).flatMap Record.line) = rest :=
    (recovered_torn (show old = [] ++ old from rfl) (.inl rfl) (Record.text_ne_nil _)
      (Record.lineFeed_not_mem_text _) follows).1
  have known : recovered old = [.numbered 1] := by decide +kernel
  refine ⟨after, e, s, opened, run, last, known, _, read_resumed resumed run last, ?_, ?_⟩
  · rw [some, lost]
    rfl
  · rw [some, lost]
    intro same
    have lengths := congrArg List.length same
    simp only [List.length_append, List.length_cons] at lengths
    omega

end Session

end PageJournal
