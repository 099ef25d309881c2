import PageJournal.Proofs.Checkpoint.Transparent
import PageJournal.Proofs.Page.Interrupted
import PageJournal.Proofs.Volume.Directories

/-! Writes and flushes of pages are atomic. Wherever one of them ends, by an error or because the process
dies, every page's file holds what it held before, but for the page itself, which may hold the new bytes
as a whole. Opening the store takes away what was left in the middle, and changes no page that has a
file. -/
namespace PageJournal

namespace Volume

/-- There is no link in the directory. -/
def Unlinked (place : Path) (v : Volume) : Prop :=
  ∀ name link, v.entry? (place.child name) ≠ some (.link link)

/-- There is no file in the directory in which bytes were gathering. -/
def Tidy (place : Path) (v : Volume) : Prop :=
  ∀ name, PageName.isTemporary name = true → name.utf8ByteSize ≤ Route.maxName →
    ∀ i reversed, v.entry? (place.child name) ≠ some (.file i reversed)

variable {h : Handle} {dir place : Path} {v w : Volume} {p : PageId}

theorem Beside.kind (beside : Beside place p v w) {q : Path} (page : q ≠ place.child (Slot.page p).name)
    (gathering : q ≠ place.child (Slot.gathering p).name) {e : Entry} (there : w.entry? q = some e) :
    ∃ old, v.entry? q = some old ∧ old.shape = e.shape := by
  have shapes := beside q page gathering
  rw [there] at shapes
  exact Option.map_eq_some_iff.mp shapes.symm

theorem unlinked_of_entries (none : ∀ x ∈ v.entries, ∀ link, x.2 ≠ .link link) : Unlinked place v := by
  intro name link there
  rw [entry?_of_ne_nil _ (child_ne_nil place name), List.lookup_eq_some_iff] at there
  obtain ⟨front, back, entries, -⟩ := there
  have mem : (place.child name, Entry.link link) ∈ v.entries := by
    rw [entries]
    exact List.mem_append_right front List.mem_cons_self
  exact none _ mem link rfl

theorem Unlinked.beside (unlinked : Unlinked place v) (orderly : Orderly h dir place w)
    (beside : Beside place p v w) : Unlinked place w := by
  intro name link there
  have plain : ∀ x : Slot, place.child name ≠ place.child x.name := by
    intro x same
    rw [same] at there
    rcases orderly.kind x (.link link) there with wrong | ⟨i, reversed, wrong, -⟩
    all_goals cases wrong
  obtain ⟨old, before, shape⟩ := beside.kind (plain _) (plain _) there
  cases old with
  | link target => exact unlinked name target before
  | file | directory | device => cases shape

theorem child_ne_page {name : String} (temporary : PageName.isTemporary name = true) (place : Path)
    (p : PageId) : place.child name ≠ place.child (Slot.page p).name := by
  intro same
  have own : name = (Slot.page p).name := by simpa [Path.child] using same
  rw [own, Slot.name, PageName.isTemporary_render] at temporary
  cases temporary

theorem Tidy.beside (tidy : Tidy place v) (gone : w.slot? place (.gathering p) = none)
    (beside : Beside place p v w) : Tidy place w := by
  intro name temporary short i reversed there
  by_cases gathering : place.child name = place.child (Slot.gathering p).name
  · rw [gathering] at there
    cases gone.symm.trans there
  · obtain ⟨old, before, shape⟩ := beside.kind (child_ne_page temporary place p) gathering there
    cases old with
    | file j bytes => exact tidy name temporary short j bytes before
    | link | directory | device => cases shape

end Volume

namespace PageStore

open Volume

variable {h : Handle} {dir place : Path} {v w : Volume}

/-- What discovering a store's pages comes to. -/
structure Discovered (place : Path) (v : Volume) (names : List String) (known : List PageId)
    (w : Volume) : Prop where
  fewer : ∀ q e, w.entry? q = some e → v.entry? q = some e
  kept : ∀ p, w.slot? place (.page p) = v.slot? place (.page p)
  cleared : ∀ name ∈ names, PageName.isTemporary name = true → name.utf8ByteSize ≤ Route.maxName →
    ∀ i reversed, w.entry? (place.child name) ≠ some (.file i reversed)
  known : ∀ p, (Slot.page p).name ∈ names → ∀ i reversed,
    v.slot? place (.page p) = some (.file i reversed) → p ∈ known

theorem discovered {names : List String} {known : List PageId} (orderly : v.Orderly h dir place)
    (unlinked : Unlinked place v) (done : discover dir v names = .ok (known, w)) :
    Discovered place v names known w := by
  induction names generalizing v known with
  | nil =>
    cases done
    exact ⟨fun _ _ there => there, fun _ => rfl, nofun, nofun⟩
  | cons name rest ih =>
    rcases discover_cons done with ⟨other, later⟩ | ⟨u, temporary, removed, later⟩ |
      ⟨pages, lasting, rfl, later⟩
    · have later := ih orderly unlinked later
      have absent (proper : IsName name) (short : name.utf8ByteSize ≤ Route.maxName) :
          ∀ i reversed, v.entry? (place.child name) ≠ some (.file i reversed) := by
        intro i reversed there
        rw [(orderly.leads.isFile_child proper (unlinked name)).mpr ⟨short, i, reversed, there⟩] at other
        cases other
      refine ⟨later.fewer, later.kept, fun n mem temporary short i reversed there => ?_,
        fun p mem i reversed there => ?_⟩
      · rcases List.mem_cons.mp mem with rfl | mem
        · exact absent (isName_of_isTemporary temporary) short i reversed (later.fewer _ _ there)
        · exact later.cleared n mem temporary short i reversed there
      · rcases List.mem_cons.mp mem with rfl | mem
        · exact absurd there (absent (Slot.page p).isName (Slot.page p).short i reversed)
        · exact later.known p mem i reversed there
    · obtain ⟨orderly, entries⟩ :=
        orderly.removeChild (isName_of_isTemporary temporary) (unlinked name) removed
      have fewer : ∀ q e, u.entry? q = some e → v.entry? q = some e := by
        intro q e there
        rw [entries] at there
        split at there
        · cases there
        · exact there
      have kept : ∀ p, u.slot? place (.page p) = v.slot? place (.page p) := fun p =>
        (entries _).trans (if_neg (child_ne_page temporary place p).symm)
      have later := ih orderly (fun n link there => unlinked n link (fewer _ _ there)) later
      refine ⟨fun q e there => fewer q e (later.fewer q e there), fun p => (later.kept p).trans (kept p),
        fun n mem other short i reversed there => ?_, fun p mem i reversed there => ?_⟩
      · rcases List.mem_cons.mp mem with rfl | mem
        · have gone := later.fewer _ _ there
          rw [entries, if_pos rfl] at gone
          cases gone
        · exact later.cleared n mem other short i reversed there
      · rcases List.mem_cons.mp mem with rfl | mem
        · rw [Slot.name, PageName.isTemporary_render] at temporary
          cases temporary
        · exact later.known p mem i reversed ((kept p).trans there)
    · have later := ih orderly unlinked later
      refine ⟨later.fewer, later.kept, fun n mem temporary => ?_, fun p mem i reversed there => ?_⟩
      · rcases List.mem_cons.mp mem with rfl | mem
        · cases lasting.symm.trans temporary
        · exact later.cleared n mem temporary
      · rcases List.mem_cons.mp mem with rfl | mem
        · rw [Slot.name, PageName.parse?_render]
          exact List.mem_append_left _ (List.mem_singleton_self p)
        · exact List.mem_append_right _ (later.known p mem i reversed there)

/-- Making the pages that are missing changes no known page and leaves nothing in the middle. -/
theorem formatted {t : Trouble} {pageSize : Nat} {known pages : List PageId} (orderly : v.Orderly h dir place)
    (unlinked : Unlinked place v) (tidy : Tidy place v)
    (done : format t dir pageSize known pages v = (.ok (), w)) :
    w.Orderly h dir place ∧ Unlinked place w ∧ Tidy place w ∧
      ∀ p ∈ known, w.slot? place (.page p) = v.slot? place (.page p) := by
  induction pages generalizing v with
  | nil =>
    cases done
    exact ⟨orderly, unlinked, tidy, fun _ _ => rfl⟩
  | cons page rest ih =>
    unfold format at done
    split at done
    · exact ih orderly unlinked tidy done
    · next unknown =>
      obtain ⟨outcome, replaced⟩ := orderly.replace t page (List.replicate pageSize 0) true
      split at done
      · cases done
      · next u replacement =>
        rw [replacement] at outcome replaced
        rw [refusal_append] at outcome
        rcases refused : refusal t (inTheWay (v.blocked place) page)
          (installCalls (List.replicate pageSize 0) true) with _ | cause
        all_goals rw [refused] at outcome replaced
        · obtain ⟨orderly, unlinked, tidy, kept⟩ := ih replaced.orderly
            (unlinked.beside replaced.orderly replaced.beside)
            (tidy.beside (replaced.gone rfl) replaced.beside) done
          refine ⟨orderly, unlinked, tidy, fun p mem => (kept p mem).trans (replaced.others p ?_)⟩
          rintro rfl
          exact unknown (List.contains_iff_mem.mpr mem)
        · cases outcome

/-- A store that has been opened shows every page as its file was, and nothing is left in the middle. -/
theorem tidy_openAt {c : Config} {cache : Cache} {counters : Counters} {t : Trouble} {s : PageStore}
    (orderly : v.Orderly h dir place) (unlinked : Unlinked place v)
    (opened : openAt c dir cache counters v t = (.ok s, w)) :
    s.dir = dir ∧ s.pageSize = c.pageSize ∧ s.pageCount = c.pageCount ∧ s.disk.Orderly h dir place ∧
      (∀ name, PageName.isTemporary name = true → s.disk.isFile (dir.child name) = false) ∧
      ∀ p i reversed, v.slot? place (.page p) = some (.file i reversed) →
        s.disk.slot? place (.page p) = some (.file i reversed) := by
  obtain ⟨_, names, known, u, made, listed, found, formats, rfl⟩ := openAt_eq_ok opened
  cases orderly.leads.createDirectories_self.symm.trans made
  have discovered := discovered orderly unlinked found
  have unlinkedU : Unlinked place u := fun n link there => unlinked n link (discovered.fewer _ _ there)
  have tidyU : Tidy place u := by
    intro name temporary short i reversed there
    have listed := orderly.leads.mem_names listed (discovered.fewer _ _ there)
    exact discovered.cleared name listed temporary short i reversed there
  obtain ⟨orderlyW, unlinkedW, tidyW, kept⟩ :=
    formatted (orderly_discover orderly unlinked found) unlinkedU tidyU formats
  refine ⟨rfl, rfl, rfl, orderlyW, fun name temporary => ?_, fun p i reversed there => ?_⟩
  · have seen := orderlyW.leads.isFile_child (isName_of_isTemporary temporary) (unlinkedW name)
    refine Bool.eq_false_iff.mpr fun file => ?_
    obtain ⟨short, i, reversed, there⟩ := seen.mp file
    exact tidyW name temporary short i reversed there
  · have known := discovered.known p (orderly.leads.mem_names listed there) i reversed there
    exact (kept p known).trans ((discovered.kept p).trans there)

variable {s : PageStore} {r : Rewrite} {answer : Option (Except Fault Unit)}

/-- What a call leaves behind, wherever it ends. -/
theorem rewritten (orderly : s.disk.Orderly h s.dir place) (rewrites : s.Rewrites r answer v) :
    v.Orderly h s.dir place ∧ Beside place r.page s.disk v ∧
      (∀ q, q ≠ r.page → v.slot? place (.page q) = s.disk.slot? place (.page q)) ∧
      (v.slot? place (.page r.page) = s.disk.slot? place (.page r.page) ∧ answer ≠ some (.ok ()) ∨
        ∃ bytes i, r.bytes s = .ok bytes ∧ v.slot? place (.page r.page) = some (.file i bytes.reverse) ∧
          (r.durable = false → ∀ fault, answer ≠ some (.error fault))) := by
  cases rewrites with
  | refused wrong => exact ⟨orderly, fun _ _ _ => rfl, fun _ _ => rfl, .inl ⟨rfl, nofun⟩⟩
  | @replaced bytes e _ right replaces =>
    rcases orderly.replaces replaces with ⟨kept, stopped⟩ | ⟨installed, clear⟩
    · refine ⟨kept.orderly, kept.beside, fun q _ => kept.same _ nofun, .inl ⟨kept.same _ nofun, ?_⟩⟩
      cases e with
      | done => exact absurd rfl stopped
      | refused | dead => nofun
    · obtain ⟨i, here⟩ := installed.page
      refine ⟨installed.orderly, installed.beside,
        fun q other => installed.same _ (fun same => other (Slot.page.inj same)) nofun,
        .inr ⟨bytes, i, right, here, fun volatile fault => ?_⟩⟩
      cases e with
      | refused cause => exact absurd rfl (clear volatile cause)
      | done | dead => nofun

theorem read_of_readFile {q : PageId} {bytes : Bytes} (inside : q < s.pageCount)
    (read : s.readFile q = .ok bytes) : (s.read q).1 = .ok bytes := by
  unfold PageStore.read checkRange readCounted
  rw [if_neg (UInt32.not_le.mpr inside), read]

/-- Whichever call of a write or a flush fails, and wherever the process dies meanwhile: every other page's
file reads as before, and the page's own as before or as the new bytes. It reads as before whenever an
error is returned, and as the new bytes if none is. Opening the store afterwards, if it succeeds, leaves
no file in which bytes were gathering, and every page that had a file reads as this file did. -/
theorem rewrites_are_atomic (orderly : s.disk.Orderly h s.dir place) (unlinked : Unlinked place s.disk)
    (r : Rewrite) :
    (∀ t, s.Rewrites r (some (r.run t s).1) (r.run t s).2.disk) ∧
    ∀ answer v, s.Rewrites r answer v →
      (∀ q, q ≠ r.page → v.read (s.file q) = s.disk.read (s.file q)) ∧
      (v.read (s.file r.page) = s.disk.read (s.file r.page) ∨
        ∃ bytes, r.bytes s = .ok bytes ∧ v.read (s.file r.page) = .ok bytes) ∧
      (∀ fault, answer = some (.error fault) → v.read (s.file r.page) = s.disk.read (s.file r.page)) ∧
      (answer = some (.ok ()) → ∃ bytes, r.bytes s = .ok bytes ∧ v.read (s.file r.page) = .ok bytes) ∧
      ∀ (c : Config) (cache : Cache) (counters : Counters) (t : Trouble) (s' : PageStore) (w : Volume),
        openAt c s.dir cache counters v t = (.ok s', w) →
        (∀ name, PageName.isTemporary name = true → s'.disk.isFile (s.dir.child name) = false) ∧
        (∀ q, s'.disk.isFile (temporaryPath (s'.file q)) = false) ∧
        ∀ q bytes, v.read (s.file q) = .ok bytes → s'.disk.read (s'.file q) = .ok bytes ∧
          (q < c.pageCount → bytes.length = c.pageSize → (s'.read q).1 = .ok bytes) := by
  refine ⟨rewrites_run s r, fun answer v rewrites => ?_⟩
  obtain ⟨orderlyV, beside, others, here⟩ := rewritten orderly rewrites
  have same : ∀ q, v.slot? place (.page q) = s.disk.slot? place (.page q) →
      v.read (s.file q) = s.disk.read (s.file q) := fun q kept =>
    (orderlyV.read (.page q)).trans (kept ▸ (orderly.read (.page q)).symm)
  have new : ∀ bytes i, v.slot? place (.page r.page) = some (.file i bytes.reverse) →
      v.read (s.file r.page) = .ok bytes := fun bytes i installed =>
    (orderlyV.read_eq_ok (x := .page r.page)).mpr ⟨i, installed⟩
  refine ⟨fun q other => same q (others q other), ?_, ?_, ?_, ?_⟩
  · rcases here with ⟨kept, -⟩ | ⟨bytes, i, right, installed, -⟩
    · exact .inl (same _ kept)
    · exact .inr ⟨bytes, right, new bytes i installed⟩
  · rintro fault rfl
    rcases here with ⟨kept, -⟩ | ⟨bytes, i, right, installed, clear⟩
    · exact same _ kept
    · cases r with
      | write => exact absurd rfl (clear rfl fault)
      -- Only the directory was not made durable, and the new bytes are the old ones.
      | flush page =>
        obtain ⟨_, -, read⟩ := bind_eq_ok.mp right
        exact (new bytes i installed).trans (readFile_eq_ok.mp read).1.symm
  · rintro rfl
    rcases here with ⟨-, wrong⟩ | ⟨bytes, i, right, installed, -⟩
    · exact absurd rfl wrong
    · exact ⟨bytes, right, new bytes i installed⟩
  · intro c cache counters t s' w opened
    obtain ⟨dir, pageSize, pageCount, orderlyW, tidy, kept⟩ :=
      tidy_openAt orderlyV (unlinked.beside orderlyV beside) opened
    refine ⟨tidy, fun q => ?_, fun q bytes content => ?_⟩
    · rw [PageStore.file, fileIn, temporaryPath_child, dir]
      exact tidy _ (PageName.isTemporary_temporary q)
    · obtain ⟨i, held⟩ := (orderlyV.read_eq_ok (x := .page q)).mp content
      rw [← dir] at orderlyW
      have read : s'.disk.read (s'.file q) = .ok bytes :=
        (orderlyW.read_eq_ok (x := .page q)).mpr ⟨i, kept q i _ held⟩
      refine ⟨read, fun inside whole => read_of_readFile (pageCount ▸ inside) ?_⟩
      exact readFile_eq_ok.mpr ⟨read, whole.trans pageSize.symm⟩

/-- The process dies while new bytes of the second page are appended. Once the store has been opened what
gathered is gone, and both pages are as before. -/
theorem rewrites_are_atomic_torn :
    let s := Checkpoint.Checkpointer.twoPages.store
    let c : Config := { pageSize := 4, pageCount := 3 }
    ∃ v, s.Rewrites (.write 1 [9, 9, 9]) none v ∧ v.read (temporaryPath (s.file 1)) = .ok [9, 9] ∧
      ∃ s' w, openAt c s.dir s.cache s.counters v .none = (.ok s', w) ∧
        s'.disk.isFile (temporaryPath (s'.file 1)) = false ∧
        (s'.read 0).1 = .ok [1, 2, 3, 4] ∧ (s'.read 1).1 = .ok [0, 0, 0, 0] := by
  intro s c
  have unlinked : Unlinked ["pages"] s.disk :=
    unlinked_of_entries (by simp [s, Checkpoint.Checkpointer.twoPages])
  let gathering (bytes : Bytes) : Volume :=
    ⟨(["pages", "page_1.dbp.tmp"], .file 3 bytes.reverse) :: s.disk.entries, 4⟩
  have whole : (chunks chunkSize ([9, 9, 9, 0] : Bytes))[0]? = some [9, 9, 9, 0] := by rfl
  have front : ([9, 9] : Bytes) <+: [9, 9, 9, 0] := by decide
  have opened : (s.disk.openTruncate (temporaryPath (s.file 1))).map (·.2) = .ok (gathering []) := by rfl
  have appended : appendAt (temporaryPath (s.file 1)) [9, 9] (gathering []) = .ok (gathering [9, 9]) := by
    rfl
  have stopped : Ending.dead ≠ .done := by rintro ⟨⟩
  have right : Rewrite.bytes s (.write 1 [9, 9, 9]) = .ok [9, 9, 9, 0] := by rfl
  have install : Carries (s.file 1) [9, 9, 9, 0] (installSteps (s.file 1) [9, 9, 9, 0] false) s.disk .dead
      (gathering [9, 9]) := .next opened (.torn whole front appended stopped)
  have rewrites : s.Rewrites (.write 1 [9, 9, 9]) none (gathering [9, 9]) :=
    .replaced (e := .dead) right (.died install)
  have succeeds : (openAt c s.dir s.cache s.counters (gathering [9, 9]) .none).1.isOk = true := by
    decide +kernel
  obtain ⟨-, -, -, -, reopened⟩ := (rewrites_are_atomic Checkpoint.Checkpointer.orderly_twoPages unlinked
    (.write 1 [9, 9, 9])).2 none _ rewrites
  rcases opened : openAt c s.dir s.cache s.counters (gathering [9, 9]) .none with ⟨_ | s', w⟩
  · rw [opened] at succeeds
    cases succeeds
  · obtain ⟨-, gone, shown⟩ := reopened c s.cache s.counters .none s' w opened
    exact ⟨_, rewrites, by rfl, s', w, opened, gone 1, (shown 0 [1, 2, 3, 4] (by rfl)).2 (by decide) (by rfl),
      (shown 1 [0, 0, 0, 0] (by rfl)).2 (by decide) (by rfl)⟩

end PageStore

end PageJournal
