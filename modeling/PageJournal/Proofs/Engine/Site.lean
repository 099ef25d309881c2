import PageJournal.Proofs.Engine.Settled

/-! Opening an engine in a directory of regular files and directories. Whatever was there, the engine has its
files in their places then, and its logs go on behind the bytes that they held. -/
namespace PageJournal

namespace Volume

variable {dir home place way : Path} {v w : Volume} {name : String}

/-- The bytes of the file under a path; none if there is no file. -/
def contents (v : Volume) (p : Path) : Bytes :=
  match v.entry? p with
  | some (.file _ reversed) => reversed.reverse
  | _ => []

/-- A file that goes away from a directory of page files. -/
theorem Tended.removeFile_within (tended : Tended dir place v) (leads : v.LeadsTo way home)
    (proper : IsName name) (removed : v.removeFile (dir.child name : Path) = .ok w) :
    Within way home dir place v w := by
  obtain ⟨after, entries⟩ := tended.removeFile proper removed
  have file : v.entry? (place.child name) ≠ some .directory := by
    intro directory
    obtain ⟨found, located, removed⟩ := bind_eq_ok.mp removed
    obtain rfl := tended.leads.reach_child_eq proper (tended.ordinary.unlinked name) located
    rw [directory] at removed
    cases removed
  refine ⟨leads.keep (fun q there => ?_) (fun q link there => ?_), after, fun q out =>
    (entries q).trans (if_neg (out name))⟩
  · rw [entries, if_neg, there]
    rintro rfl
    exact file there
  · rw [entries, if_neg, there]
    rintro rfl
    exact tended.ordinary.unlinked name link there

/-- A directory for an engine: regular files and directories in it, and in the directory of its pages. -/
structure Site (dir home : Path) (v : Volume) : Prop where
  leads : v.LeadsTo dir home
  sound : v.Sound
  beside : Ordinary home v
  pages : Ordinary (home.child Engine.pagesName) v

theorem EmptyAt.site (empty : v.EmptyAt dir home) (sound : v.Sound) : Site dir home v where
  leads := leadsTo_of_follow empty.followed empty.directory
  sound := sound
  beside name e there := by
    cases (empty.bare.entry? (List.cons_ne_nil name [])).symm.trans there
  pages name e there := by
    cases (empty.bare.entry? (List.cons_ne_nil Engine.pagesName [name])).symm.trans
      (by simpa [Path.child] using there)

/-- A volume in which only the directory was made. -/
theorem site_data : Site ["data"] ["data"] (empty.put ["data"] .directory) := by
  refine EmptyAt.site ⟨by rfl, by rfl, fun x mem below => ?_⟩ ⟨by decide, by decide⟩
  rcases List.mem_cons.mp mem with rfl | old
  · rfl
  · have others : empty.entries.all fun x => !(["data"].isPrefixOf x.1) := by rfl
    have other := List.all_eq_true.mp others x (List.mem_filter.mp old).1
    rw [List.isPrefixOf_iff_prefix.mpr below] at other
    cases other

/-- A file beside the page directory is opened or made, with all the bytes that it held. -/
theorem Site.openAppend (site : Site dir home v) (proper : IsName name)
    (short : name.utf8ByteSize ≤ Route.maxName) {h : Handle}
    (opened : v.openAppend (dir.child name : Path) = .ok (h, w)) :
    Site dir home w ∧ (∀ q, q ≠ home.child name → w.entry? q = v.entry? q) ∧
      ∃ k, h = .file k ∧ w.entry? (home.child name) = some (.file k (v.contents (home.child name)).reverse) := by
  have named := child_ne_nil home name
  have sound := site.sound.openWrite opened
  obtain ⟨found, reached, opened⟩ := bind_eq_ok.mp opened
  rw [site.leads.reach_child proper short (site.beside.unlinked name)] at reached
  cases reached
  split at opened
  · next free =>
    cases opened
    have entries := entry?_addFile v named
    have others : ∀ q, q ≠ home.child name → entry? (v.addFile (home.child name)).2 q = v.entry? q :=
      fun q other => (entries q).trans (if_neg other)
    refine ⟨⟨site.leads.addFile named free, sound, fun own e there => ?_, fun own e there => ?_⟩, others,
      v.nextIdentity, rfl, ?_⟩
    · have there := (entries _).symm.trans there
      split at there
      · exact .inr ⟨_, _, (Option.some.inj there).symm⟩
      · exact site.beside own e there
    · exact site.pages own e
        ((others _ (Engine.child_ne_grandchild home name Engine.pagesName own).symm).symm.trans there)
    · refine (entries _).trans ?_
      simp [contents, free]
  · next k reversed there =>
    cases opened
    exact ⟨site, fun _ _ => rfl, k, rfl, by simp [contents, there]⟩
  · cases opened
  · cases opened
  · next d device =>
    rcases site.beside _ _ device with same | ⟨k, reversed, same⟩
    all_goals cases same

end Volume

namespace PageStore

open Volume

variable {dir place way home : Path} {v w : Volume}

theorem within_discover {names : List String} {known : List PageId} (tended : Tended dir place v)
    (leads : v.LeadsTo way home) (done : discover dir v names = .ok (known, w)) :
    Within way home dir place v w := by
  induction names generalizing v known with
  | nil =>
    cases done
    exact .refl leads tended
  | cons name rest ih =>
    rcases discover_cons done with ⟨-, later⟩ | ⟨u, temporary, removed, later⟩ | ⟨pages, -, -, later⟩
    · exact ih tended leads later
    · have first := tended.removeFile_within leads (isName_of_isTemporary temporary) removed
      exact first.trans (ih first.tended first.leads later)
    · exact ih tended leads later

theorem within_format (tended : Tended dir place v) (leads : v.LeadsTo way home) (t : Trouble) (pageSize : Nat)
    (known pages : List PageId) : Within way home dir place v (format t dir pageSize known pages v).2 := by
  induction pages generalizing v with
  | nil => exact .refl leads tended
  | cons page rest ih =>
    unfold format
    split
    · exact ih tended leads
    · have first := tended.replace_within leads t page (List.replicate pageSize 0) true
      split
      · next done =>
        rw [done] at first
        exact first
      · next done =>
        rw [done] at first
        exact first.trans (ih first.tended first.leads)

/-- The file of a page stays as it is when the store is opened. -/
theorem openAt_keeps {c : Config} {cache : Cache} {counters : Counters} {t : Trouble} {s : PageStore}
    {made : Volume} (sound : v.Sound) (directory : v.createDirectories dir = .ok made)
    (leads : made.follow dir = .ok place) (ordinary : Ordinary place v)
    (opened : openAt c dir cache counters v t = (.ok s, w)) {p : PageId} {i : Nat} {reversed : Bytes}
    (there : v.slot? place (.page p) = some (.file i reversed)) :
    w.slot? place (.page p) = some (.file i reversed) := by
  obtain ⟨-, -, -, -, lasting⟩ := openAt_entries sound directory leads ordinary opened
  have claimed : Claimed place v p :=
    ⟨_, i, reversed, PageName.parse?_render p, (Slot.page p).short, there⟩
  refine (lasting _ (PageName.isTemporary_render p) (fun q _ free same => ?_) i reversed).mpr there
  cases Slot.name_injective (x := .page p) same
  exact free claimed

/-- A page store that is opened at a site makes its directory and works in it. -/
theorem openAt_site (site : Site dir home v) {c : Config} {cache : Cache} {counters : Counters} {t : Trouble}
    {s : PageStore} (opened : openAt c (dir.child Engine.pagesName) cache counters v t = (.ok s, w)) :
    s = ⟨w, dir.child Engine.pagesName, c.pageSize, c.pageCount, [], cache, counters⟩ ∧ Site dir home w ∧
      Tended (dir.child Engine.pagesName) (home.child Engine.pagesName) w ∧
      (∀ name, name ≠ Engine.pagesName → w.entry? (home.child name) = v.entry? (home.child name)) ∧
      ∀ p i reversed, v.slot? (home.child Engine.pagesName) (.page p) = some (.file i reversed) →
        w.slot? (home.child Engine.pagesName) (.page p) = some (.file i reversed) := by
  obtain ⟨made, names, known, u, makes, -, found, formats, same⟩ := openAt_eq_ok opened
  have named := child_ne_nil home Engine.pagesName
  have creates := makes
  have sound := (site.sound.createDirectories makes).1
  rw [site.leads.createDirectories Engine.isName_pages Engine.short_pages (site.beside.unlinked _)] at makes
  have directory : made.LeadsTo dir home ∧ made.entry? (home.child Engine.pagesName) = some .directory ∧
      ∀ q, q ≠ home.child Engine.pagesName → made.entry? q = v.entry? q := by
    rcases there : v.entry? (home.child Engine.pagesName) with _ | (_ | _ | _ | _)
    all_goals
      rw [there] at makes
      cases makes
    · exact ⟨leadsTo_put site.leads named there .directory, entry?_put_self named .directory,
        fun q other => (entry?_put named _ q).trans (if_neg other)⟩
    · exact ⟨site.leads, there, fun _ _ => rfl⟩
  -- discovery and formatting touch names in the page directory only
  obtain ⟨leads, here, others⟩ := directory
  have tended : Tended (dir.child Engine.pagesName) (home.child Engine.pagesName) made := by
    refine ⟨leads.child Engine.isName_pages Engine.short_pages here, sound, fun name e there => ?_⟩
    rw [others _ (by simp [Path.child])] at there
    exact site.pages name e there
  have cleared := within_discover tended leads found
  have filled := within_format cleared.tended cleared.leads t c.pageSize known (configured c)
  rw [formats] at filled
  have within := cleared.trans filled
  have beside : ∀ name, w.entry? (home.child name) = made.entry? (home.child name) :=
    fun name => within.elsewhere _ (Engine.child_ne_grandchild home name Engine.pagesName)
  refine ⟨same, ⟨within.leads, within.tended.sound, fun name e there => ?_, within.tended.ordinary⟩,
    within.tended, fun name other => (beside name).trans (others _ (Engine.child_ne_child other)),
    fun p i reversed => openAt_keeps site.sound creates tended.leads.follow site.pages opened⟩
  rw [beside] at there
  by_cases own : name = Engine.pagesName
  · rw [own, here] at there
    exact .inl (Option.some.inj there).symm
  · rw [others _ (Engine.child_ne_child own)] at there
    exact site.beside name e there

end PageStore

namespace Engine

open Volume

variable {dir home : Path} {v made after : Volume} {c : Config} {clock : Clock} {e : Engine}

/-- The log of a site is read as it is, and a missing one as an empty one. -/
theorem verifyAt_site (site : Site dir home v) {recovery : Log.Summary}
    (verified : Log.verifyAt v (dir.child logName) = .ok recovery) :
    recovery = (Log.recover (v.contents (home.child logName))).2 := by
  have unlinked := site.beside.unlinked logName
  have found := site.leads.find?_child isName_log short_log unlinked
  have reached := site.leads.reach_child isName_log short_log unlinked .content
  rcases there : v.entry? (home.child logName) with _ | entry
  · simp only [Log.verifyAt, Log.recoverAt, Volume.contains, found, there] at verified
    cases verified
    simp only [contents, there]
    rfl
  · simp only [Log.verifyAt, Log.recoverAt, Volume.contains, found, there] at verified
    rcases site.beside _ _ there with rfl | ⟨k, reversed, rfl⟩
    all_goals
      simp only [Volume.read, openRead, Volume.follow, reached, there, bind, Except.bind, Source.read] at verified
    all_goals cases verified
    simp only [contents, there]

/-- The parts of an engine that are opened at a site, beside its event log. -/
theorem openParts_site (site : Site dir home v) {parts : Parts}
    (opened : openParts c dir v = (.ok parts, after)) :
    parts.store = ⟨parts.store.disk, dir.child pagesName, c.pageSize, c.pageCount, [],
        .create c.cacheCapacity c.cachePolicy, {}⟩ ∧
      Site dir home parts.store.disk ∧
      Tended (dir.child pagesName) (home.child pagesName) parts.store.disk ∧
      (∃ k, parts.writer.sink = .file k ∧ parts.store.disk.entry? (home.child logName) =
        some (.file k (v.contents (home.child logName)).reverse)) ∧
      (∃ k, parts.checkpointLog = ⟨.file k, []⟩ ∧ parts.store.disk.entry? (home.child checkpointLogName) =
        some (.file k (v.contents (home.child checkpointLogName)).reverse)) ∧
      parts.store.disk.entry? (home.child eventLogName) = v.entry? (home.child eventLogName) ∧
      ∀ p i reversed, v.slot? (home.child pagesName) (.page p) = some (.file i reversed) →
        parts.store.disk.slot? (home.child pagesName) (.page p) = some (.file i reversed) := by
  unfold openParts at opened
  dsimp only at opened
  split at opened
  · cases opened
  · next store v₁ stored =>
    obtain ⟨rfl, site₁, tended, others₁, keeps⟩ := PageStore.openAt_site site stored
    split at opened
    · cases opened
    · next file v₂ logged =>
      obtain ⟨site₂, others₂, k, rfl, log⟩ := site₁.openAppend isName_log short_log logged
      split at opened
      · cases opened
      · next checkpoints v₃ last =>
        obtain ⟨⟨file, disk⟩, opens, same⟩ := bind_eq_ok.mp last
        obtain ⟨site₃, others₃, j, rfl, marks⟩ :=
          site₂.openAppend isName_checkpointLog short_checkpointLog opens
        cases same
        cases opened
        have contents₁ : v₁.contents (home.child logName) = v.contents (home.child logName) := by
          unfold contents
          rw [others₁ _ (by decide)]
        have contents₂ : v₂.contents (home.child checkpointLogName) =
            v.contents (home.child checkpointLogName) := by
          unfold contents
          rw [others₂ _ (child_ne_child (by decide)), others₁ _ (by decide)]
        refine ⟨rfl, site₃, ⟨?_, site₃.sound, site₃.pages⟩, ⟨k, rfl, ?_⟩, ⟨j, rfl, ?_⟩, ?_,
          fun p i reversed there => ?_⟩
        · refine site₃.leads.child isName_pages short_pages ?_
          exact (others₃ _ (child_ne_child (by decide))).trans
            ((others₂ _ (child_ne_child (by decide))).trans tended.leads.directory)
        · exact (others₃ _ (child_ne_child (by decide))).trans (contents₁ ▸ log)
        · exact contents₂ ▸ marks
        · exact (others₃ _ (child_ne_child (by decide))).trans
            ((others₂ _ (child_ne_child (by decide))).trans (others₁ _ (by decide)))
        · exact (others₃ _ (child_ne_grandchild home _ pagesName _).symm).trans
            ((others₂ _ (child_ne_grandchild home _ pagesName _).symm).trans (keeps p i reversed there))

/-- An engine that has just been opened: nothing is counted, cached, dirty or waiting, and the numbers go on
behind those of the log. -/
structure Begins (c : Config) (dir : Path) (old : Bytes) (e : Engine) : Prop where
  place : e.dir = dir
  store : e.store = ⟨e.store.disk, dir.child pagesName, c.pageSize, c.pageCount, [],
    .create c.cacheCapacity c.cachePolicy, {}⟩
  waiting : e.buffer.records = []
  running : e.running = true
  sequence : e.sequence = .startingAt ((Log.recover old).2.lastLsn + 1)
  transaction : e.nextTransaction = (Log.recover old).2.lastTransaction + 1

/-- An engine that is opened at a site has its files in their places, and the pages that were there. -/
theorem openWith_site (directory : makeDirectory c v = .ok (dir, made)) (site : Site dir home made)
    (opened : openWith c clock v = (.ok e, after)) :
    e.Settled home (made.contents (home.child logName)) (made.contents (home.child checkpointLogName)) ∧
      e.Begins c dir (made.contents (home.child logName)) ∧ Site dir home e.store.disk ∧
      ∀ p i reversed, made.slot? (home.child pagesName) (.page p) = some (.file i reversed) →
        e.store.disk.slot? (home.child pagesName) (.page p) = some (.file i reversed) := by
  unfold openWith at opened
  split at opened
  · cases opened
  · rw [directory] at opened
    dsimp only at opened
    split at opened
    · cases opened
    · next events v₁ first =>
      obtain ⟨⟨file, disk⟩, opens, same⟩ := bind_eq_ok.mp first
      obtain ⟨site₁, others₁, i, rfl, here₁⟩ := site.openAppend isName_eventLog short_eventLog opens
      cases same
      have contents₁ : ∀ name, name ≠ eventLogName →
          v₁.contents (home.child name) = made.contents (home.child name) := by
        intro name other
        unfold contents
        rw [others₁ _ (child_ne_child other)]
      split at opened
      · cases opened
      · next recovery verified =>
        obtain rfl := verifyAt_site site₁ verified
        rw [contents₁ _ (by decide)] at opened
        split at opened
        · cases opened
        · next parts v₅ done =>
          obtain ⟨store, after, tended, log, marks, events, keeps⟩ := openParts_site site₁ done
          rw [contents₁ _ (by decide)] at log marks
          cases opened
          have place : parts.store.dir = dir.child pagesName := by rw [store]
          refine ⟨⟨⟨after.leads, ?_⟩, log, marks, ⟨i, _, ?_, events.trans here₁⟩⟩,
            ⟨rfl, store, rfl, rfl, rfl, rfl⟩, after, fun p i reversed there => keeps p i reversed ?_⟩
          · exact place ▸ tended
          · cases scanEvent? (Log.recover (made.contents (home.child logName))).2 <;> rfl
          · exact (others₁ _ (child_ne_grandchild home eventLogName pagesName _).symm).trans there

theorem settled_openWith (directory : makeDirectory c v = .ok (dir, made)) (site : Site dir home made)
    (opened : openWith c clock v = (.ok e, after)) :
    e.Settled home (made.contents (home.child logName)) (made.contents (home.child checkpointLogName)) ∧
      e.Begins c dir (made.contents (home.child logName)) := by
  obtain ⟨settled, begins, -⟩ := openWith_site directory site opened
  exact ⟨settled, begins⟩

end Engine

end PageJournal
