import PageJournal.Proofs.Page.Gathering

/-! What opening a page store makes of its directory. Files in which bytes were gathering go away, pages that
no file is there for are made, and every other file stays as it is. A page whose number only a file of
another name spells is not made. -/
namespace PageJournal

namespace Volume

/-- Only regular files and directories stand in a directory. -/
def Ordinary (place : Path) (v : Volume) : Prop :=
  ∀ name e, v.entry? (place.child name) = some e → e = .directory ∨ ∃ i reversed, e = .file i reversed

/-- A directory for page files in a sound volume. -/
structure Tended (dir place : Path) (v : Volume) : Prop where
  leads : v.LeadsTo dir place
  sound : v.Sound
  ordinary : Ordinary place v

variable {dir place : Path} {v w : Volume} {p : PageId} {name : String}

theorem Ordinary.unlinked (ordinary : Ordinary place v) : Unlinked place v := by
  intro name link there
  rcases ordinary name _ there with same | ⟨i, reversed, same⟩
  all_goals cases same

theorem Tended.orderly (tended : Tended dir place v) : v.Orderly (.device .null) dir place where
  leads := tended.leads
  kind x e there := by
    rcases tended.ordinary _ e there with directory | ⟨i, reversed, rfl⟩
    · exact .inl directory
    · exact .inr ⟨i, reversed, rfl, tended.sound.below i (mem_identities there rfl), nofun⟩
  apart x p i a b first second := child_slot_inj (tended.sound.eq_of_identity first second)
  known k same := nomatch same

/-- A change of one entry that is no directory and becomes none. -/
theorem Tended.change (tended : Tended dir place v) (sound : w.Sound)
    (same : ∀ q, q ≠ place.child name → w.entry? q = v.entry? q)
    (free : v.entry? (place.child name) ≠ some .directory)
    (new : ∀ e, w.entry? (place.child name) = some e → ∃ i reversed, e = .file i reversed) :
    Tended dir place w := by
  have kept : ∀ q e, v.entry? q = some e → (∀ i reversed, e ≠ .file i reversed) → w.entry? q = some e := by
    intro q e there other
    rw [same q, there]
    rintro rfl
    rcases tended.ordinary name e there with rfl | ⟨i, reversed, file⟩
    · exact free there
    · exact other i reversed file
  refine ⟨tended.leads.keep (fun q there => kept q _ there nofun) fun q link there => kept q _ there nofun,
    sound, fun other e there => ?_⟩
  by_cases here : place.child other = place.child name
  · exact .inr (new e (here ▸ there))
  · exact tended.ordinary other e ((same _ here).symm.trans there)

theorem Tended.removeFile (tended : Tended dir place v) (proper : IsName name)
    (removed : v.removeFile (dir.child name : Path) = .ok w) :
    Tended dir place w ∧ ∀ q, w.entry? q = if q = place.child name then none else v.entry? q := by
  obtain ⟨orderly, entries⟩ :=
    tended.orderly.removeChild proper (tended.ordinary.unlinked name) removed
  refine ⟨⟨orderly.leads, tended.sound.removeFile removed, fun other e there => ?_⟩, entries⟩
  rw [entries] at there
  split at there
  · cases there
  · exact tended.ordinary other e there

/-- What stands anywhere but under the names of a page's two files is the same. -/
def Elsewhere (place : Path) (p : PageId) (v w : Volume) : Prop :=
  ∀ q, q ≠ place.child (Slot.page p).name → q ≠ place.child (Slot.gathering p).name →
    w.entry? q = v.entry? q

/-- A call that changes nothing but a page's two files. -/
def Confined (dir place : Path) (p : PageId) (act : Volume → Except IoFault Volume) : Prop :=
  ∀ v w, Tended dir place v → act v = .ok w → Tended dir place w ∧ Elsewhere place p v w

theorem Tended.perform {t : Trouble} {steps : List FileStep}
    (confined : ∀ s ∈ steps, Confined dir place p s.2) (tended : Tended dir place v) :
    Tended dir place (v.perform t steps).2 ∧ Elsewhere place p v (v.perform t steps).2 :=
  perform_keeps (P := fun u => Tended dir place u ∧ Elsewhere place p v u)
    (fun s mem u w held acted => (confined s mem u w held.1 acted).imp id fun later q page gathering =>
      (later q page gathering).trans (held.2 q page gathering))
    ⟨tended, fun _ _ _ => rfl⟩

theorem Tended.spot (tended : Tended dir place v) (name : String) : Spot dir place name v :=
  ⟨tended.leads, tended.sound, tended.ordinary.unlinked name⟩

/-- What touches only the file in which a page's bytes gather is confined. -/
theorem confined_of_touches {act : Volume → Except IoFault Volume}
    (touches : Touches dir place (Slot.gathering p).name act) : Confined dir place p act := by
  intro v w tended acted
  obtain ⟨spot, touched⟩ := touches v w (tended.spot _) acted
  refine ⟨⟨spot.leads, spot.sound, fun name e there => ?_⟩, fun q _ other => touched.others q other⟩
  by_cases here : place.child name = place.child (Slot.gathering p).name
  · rw [here] at there
    exact (touched.here e there).elim (tended.ordinary _ e) .inr
  · exact tended.ordinary name e ((touched.others _ here).symm.trans there)

theorem confined_rename : Confined dir place p fun v =>
    v.rename (dir.child (Slot.gathering p).name) (dir.child (Slot.page p).name) := by
  intro v w tended acted
  have sound := tended.sound.rename acted
  obtain ⟨source, located, acted⟩ := bind_eq_ok.mp acted
  obtain ⟨target, locatedNew, acted⟩ := bind_eq_ok.mp acted
  rw [Volume.locate, tended.orderly.reach] at located locatedNew
  cases located
  cases locatedNew
  have apart : place.child (Slot.page p).name ≠ place.child (Slot.gathering p).name := by
    intro same
    cases child_slot_inj same
  split at acted
  · cases acted
  · cases acted
  · next e file there =>
    split at acted
    · cases acted
    · next free =>
      cases acted
      obtain ⟨i, reversed, rfl⟩ := (tended.ordinary _ e there).resolve_left file
      have erase := entry?_erase (v := v) (child_ne_nil place (Slot.gathering p).name)
      have put := entry?_put (v := v.erase (place.child (Slot.gathering p).name))
        (child_ne_nil place (Slot.page p).name) (.file i reversed)
      have blocked : v.entry? (place.child (Slot.page p).name) ≠ some .directory := by
        simpa [isDirectoryAt] using free
      -- the old name goes first, and then the new one changes
      have erased : Tended dir place (v.erase (place.child (Slot.gathering p).name)) := by
        refine tended.change (tended.sound.erase _) (fun q other => (erase q).trans (if_neg other))
          (by simp [there]) fun e gone => ?_
        rw [erase, if_pos rfl] at gone
        cases gone
      refine ⟨erased.change sound (fun q other => (put q).trans (if_neg other)) ?_ fun e now => ?_,
        fun q page gathering => ?_⟩
      · rw [erase, if_neg apart]
        exact blocked
      · rw [put, if_pos rfl] at now
        exact ⟨i, reversed, (Option.some.inj now).symm⟩
      · rw [put, if_neg page, erase, if_neg gathering]

theorem confined_install (bytes : Bytes) (durable : Bool) :
    ∀ s ∈ installSteps (PageStore.fileIn dir p) bytes durable, Confined dir place p s.2 := by
  intro s mem
  rw [installSteps_page] at mem
  simp only [List.mem_append, List.mem_singleton] at mem
  rcases mem with (rfl | mem) | rfl
  · exact confined_of_touches (touches_create (Slot.gathering p).isName)
  · exact confined_of_touches (touches_gather bytes durable s mem)
  · exact confined_rename

theorem confined_settle (durable : Bool) :
    ∀ s ∈ settleSteps (PageStore.fileIn dir p) durable, Confined dir place p s.2 := by
  intro s mem
  unfold settleSteps at mem
  split at mem
  · rw [List.mem_singleton.mp mem]
    intro v w tended acted
    obtain ⟨_, -, rfl⟩ := map_eq_ok.mp acted
    exact ⟨tended, fun _ _ _ => rfl⟩
  · cases mem

/-- Replacing a page's file touches no other file. -/
theorem Tended.replace (tended : Tended dir place v) (t : Trouble) (p : PageId) (bytes : Bytes)
    (durable : Bool) : Tended dir place (v.replace t (PageStore.fileIn dir p) bytes durable).2 ∧
      Elsewhere place p v (v.replace t (PageStore.fileIn dir p) bytes durable).2 := by
  obtain ⟨installed, first⟩ := tended.perform (t := t) (confined_install (p := p) bytes durable)
  unfold Volume.replace
  split
  · next done =>
    rw [done] at installed first
    obtain ⟨settled, later⟩ := installed.perform (t := t) (confined_settle (p := p) durable)
    exact ⟨settled, fun q page gathering => (later q page gathering).trans (first q page gathering)⟩
  · next done =>
    rw [done] at installed first
    obtain ⟨discarded, later⟩ := installed.perform (t := t)
      fun s mem => confined_of_touches (p := p) (touches_discard s mem)
    exact ⟨discarded, fun q page gathering => (later q page gathering).trans (first q page gathering)⟩

end Volume

namespace PageName

theorem isTemporary_of_parse? {name : String} {page : PageId} (parsed : parse? name = some page) :
    isTemporary name = false := by
  unfold parse? at parsed
  unfold isTemporary
  generalize splitExtension name.toList = parts at parsed ⊢
  obtain ⟨stem, extension⟩ := parts
  dsimp only at parsed ⊢
  split at parsed
  · next same =>
    rw [same]
    decide
  · cases parsed

theorem isName_of_parse? {name : String} {page : PageId} (parsed : parse? name = some page) :
    Volume.IsName name := by
  constructor
  · rintro rfl
    have none : parse? "." = none := by decide
    cases none.symm.trans parsed
  · rintro rfl
    have none : parse? ".." = none := by decide
    cases none.symm.trans parsed

end PageName

namespace Table

/-- A page that is not missing never will be. -/
theorem run_found {t : Table} {page : PageId} (found : t.contents page ≠ .error (.pageNotFound page))
    (calls : List Call) : (t.run calls).2.read page ≠ .error (.pageNotFound page) := by
  obtain ⟨-, -, contents⟩ := run_contents calls t
  unfold read
  split
  · nofun
  · rw [contents]
    rcases lastWritten page (calls.zip (t.run calls).1) with _ | payload
    · exact found
    · nofun

end Table

namespace PageStore

open Volume

variable {dir place : Path} {v w : Volume} {p : PageId}

/-- Some file in the directory has a name that spells the page's number, in whatever way. -/
def Claimed (place : Path) (v : Volume) (p : PageId) : Prop :=
  ∃ name i reversed, PageName.parse? name = some p ∧ name.utf8ByteSize ≤ Route.maxName ∧
    v.entry? (place.child name) = some (.file i reversed)

theorem mem_configured {c : Config} : p ∈ configured c ↔ p < c.pageCount := by
  simp only [configured, List.mem_map, List.mem_range]
  constructor
  · rintro ⟨n, low, rfl⟩
    have small : n < UInt32.size := Nat.lt_trans low c.pageCount.toNat_lt
    rwa [UInt32.lt_iff_toNat_lt, UInt32.toNat_ofNat_of_lt' small]
  · intro low
    exact ⟨p.toNat, UInt32.lt_iff_toNat_lt.mp low, UInt32.ofNat_toNat⟩

/-- Discovering takes nothing but temporary files away, and knows every page that a file's name spells. -/
theorem tended_discover {names : List String} {known : List PageId} (tended : Tended dir place v)
    (done : PageStore.discover dir v names = .ok (known, w)) :
    Tended dir place w ∧
      (∀ q, (∀ name, PageName.isTemporary name = true → q ≠ place.child name) →
        w.entry? q = v.entry? q) ∧
      ∀ p, p ∈ known ↔ ∃ name ∈ names, PageName.parse? name = some p ∧
        v.isFile (dir.child name) = true := by
  induction names generalizing v known with
  | nil =>
    cases done
    exact ⟨tended, fun _ _ => rfl, by simp⟩
  | cons name rest ih =>
    cases file : v.isFile (dir.child name) with
    | false =>
      have later : PageStore.discover dir v rest = .ok (known, w) := by
        rw [PageStore.discover, file] at done
        exact done
      obtain ⟨tended, entries, spelled⟩ := ih tended later
      exact ⟨tended, entries, fun p => by simp [spelled, file]⟩
    | true =>
      rcases discover_cons done with ⟨other, -⟩ | ⟨u, temporary, removed, later⟩ |
        ⟨pages, lasting, rfl, later⟩
      · cases file.symm.trans other
      · obtain ⟨after, gone⟩ := tended.removeFile (isName_of_isTemporary temporary) removed
        obtain ⟨last, entries, spelled⟩ := ih after later
        refine ⟨last, fun q other => ?_, fun p => ?_⟩
        · rw [entries q other, gone, if_neg (other name temporary)]
        · rw [spelled]
          -- the name that went away spells no page, and the others are seen as before
          have seen : ∀ n, PageName.parse? n = some p →
              (u.isFile (dir.child n) = true ↔ v.isFile (dir.child n) = true) := by
            intro n parsed
            have proper := PageName.isName_of_parse? parsed
            have other : place.child n ≠ place.child name := by
              intro same
              have same : n = name := by simpa [Path.child] using same
              rw [← same, PageName.isTemporary_of_parse? parsed] at temporary
              cases temporary
            rw [after.leads.isFile_child proper (after.ordinary.unlinked n),
              tended.leads.isFile_child proper (tended.ordinary.unlinked n), gone, if_neg other]
          constructor
          · rintro ⟨n, mem, parsed, there⟩
            exact ⟨n, List.mem_cons_of_mem _ mem, parsed, (seen n parsed).mp there⟩
          · rintro ⟨n, mem, parsed, there⟩
            rcases List.mem_cons.mp mem with rfl | mem
            · rw [PageName.isTemporary_of_parse? parsed] at temporary
              cases temporary
            · exact ⟨n, mem, parsed, (seen n parsed).mpr there⟩
      · obtain ⟨tended, entries, spelled⟩ := ih tended later
        refine ⟨tended, entries, fun p => ?_⟩
        simp [spelled, file]

/-- Making pages puts a file of zero bytes in place of each that is not known, and touches nothing else. -/
theorem tended_format {t : Trouble} {pageSize : Nat} {known pages : List PageId}
    (tended : Tended dir place v) (tidy : Tidy place v)
    (done : PageStore.format t dir pageSize known pages v = (.ok (), w)) :
    Tended dir place w ∧
      (∀ p ∈ pages, p ∉ known →
        ∃ i, w.slot? place (.page p) = some (.file i (List.replicate pageSize 0))) ∧
      ∀ q, (∀ p ∈ pages, p ∉ known → q ≠ place.child (Slot.page p).name) → w.entry? q = v.entry? q := by
  induction pages generalizing v with
  | nil =>
    cases done
    exact ⟨tended, nofun, fun _ _ => rfl⟩
  | cons page rest ih =>
    unfold PageStore.format at done
    split at done
    · next listed =>
      have listed := List.contains_iff_mem.mp listed
      obtain ⟨tended, zeroed, others⟩ := ih tended tidy done
      refine ⟨tended, fun p mem unknown => ?_, fun q other => others q fun p mem => other p (.tail _ mem)⟩
      rcases List.mem_cons.mp mem with rfl | mem
      · exact absurd listed unknown
      · exact zeroed p mem unknown
    · next unlisted =>
      have unlisted : page ∉ known := fun mem => unlisted (List.contains_iff_mem.mpr mem)
      obtain ⟨outcome, replaced⟩ := tended.orderly.replace t page (List.replicate pageSize 0) true
      obtain ⟨after, elsewhere⟩ := tended.replace t page (List.replicate pageSize 0) true
      split at done
      · cases done
      · next u replacement =>
        rw [replacement] at outcome replaced after elsewhere
        rw [refusal_append] at outcome
        rcases refused : refusal t (inTheWay (v.blocked place) page)
          (installCalls (List.replicate pageSize 0) true) with _ | cause
        all_goals rw [refused] at outcome replaced
        · obtain ⟨i, here⟩ := replaced.here
          rw [List.reverse_replicate] at here
          have gone := replaced.gone rfl
          -- nothing stood where the bytes gathered: no file, and a directory would be in the way
          have free : v.slot? place (.gathering page) = none := by
            rcases there : v.slot? place (.gathering page) with _ | e
            · rfl
            · rcases tended.ordinary _ e there with rfl | ⟨i, reversed, rfl⟩
              · rw [refusal_installCalls] at refused
                simp [inTheWay, blocked, there] at refused
              · exact absurd there (tidy _ (PageName.isTemporary_temporary page)
                  (Slot.gathering page).short i reversed)
          have same : ∀ q, q ≠ place.child (Slot.page page).name → u.entry? q = v.entry? q := by
            intro q other
            by_cases gathering : q = place.child (Slot.gathering page).name
            · rw [gathering]
              exact gone.trans free.symm
            · exact elsewhere q other gathering
          obtain ⟨last, zeroed, others⟩ := ih after (tidy.beside gone replaced.beside) done
          refine ⟨last, fun p mem unknown => ?_, fun q other => ?_⟩
          · by_cases again : p ∈ rest
            · exact zeroed p again unknown
            · obtain rfl := (List.mem_cons.mp mem).resolve_right again
              refine ⟨i, (others _ fun p' mem _ path => ?_).trans here⟩
              cases child_slot_inj path
              exact again mem
          · rw [others q fun p mem => other p (.tail _ mem), same q (other page (.head _) unlisted)]
        · cases outcome

/-- The directory of a store, once it has been made, holds the regular files that it held before. -/
theorem tended_made {made : Volume} {names : List String} (sound : v.Sound)
    (directory : v.createDirectories dir = .ok made) (leads : made.follow dir = .ok place)
    (ordinary : v.Ordinary place) (listed : made.names dir = .ok names) :
    Tended dir place made ∧ ∀ q i reversed,
      made.entry? q = some (.file i reversed) ↔ v.entry? q = some (.file i reversed) := by
  obtain ⟨soundM, grown⟩ := sound.createDirectories directory
  have here : made.entry? place = some .directory := by
    obtain ⟨found, followed, listed⟩ := bind_eq_ok.mp listed
    cases leads.symm.trans followed
    split at listed
    · cases listed
    · next there => exact there
    · cases listed
  refine ⟨⟨leadsTo_of_follow leads here, soundM, fun name e there => ?_⟩, fun q i reversed =>
    ⟨fun there => grown.new q _ there nofun, grown.kept q _⟩⟩
  by_cases directory : e = .directory
  · exact .inl directory
  · exact ordinary name e (grown.new _ e there directory)

/-- Behind an opening, nothing is left in the middle, pages that no file claimed are zero, and every other
lasting name stands for the file that it stood for. -/
theorem openAt_entries {c : Config} {cache : Cache} {counters : Counters} {t : Trouble} {s : PageStore}
    {made : Volume} (sound : v.Sound) (directory : v.createDirectories dir = .ok made)
    (leads : made.follow dir = .ok place) (ordinary : v.Ordinary place)
    (opened : openAt c dir cache counters v t = (.ok s, w)) :
    s = ⟨w, dir, c.pageSize, c.pageCount, [], cache, counters⟩ ∧ Tended dir place w ∧ Tidy place w ∧
      (∀ p < c.pageCount, ¬ Claimed place v p →
        ∃ i, w.slot? place (.page p) = some (.file i (List.replicate c.pageSize 0))) ∧
      ∀ name, PageName.isTemporary name = false →
        (∀ p < c.pageCount, ¬ Claimed place v p → name ≠ (Slot.page p).name) →
        ∀ i reversed, w.entry? (place.child name) = some (.file i reversed) ↔
          v.entry? (place.child name) = some (.file i reversed) := by
  obtain ⟨_, names, known, u, made', listed, found, formats, same⟩ := openAt_eq_ok opened
  cases directory.symm.trans made'
  obtain ⟨tended, files⟩ := tended_made sound directory leads ordinary listed
  obtain ⟨tendedU, entriesU, spelled⟩ := tended_discover tended found
  have claimed : ∀ p, p ∈ known ↔ Claimed place v p := by
    intro p
    have seen : ∀ name, PageName.parse? name = some p → (made.isFile (dir.child name) = true ↔
        name.utf8ByteSize ≤ Route.maxName ∧
          ∃ i reversed, v.entry? (place.child name) = some (.file i reversed)) := by
      intro name parsed
      rw [tended.leads.isFile_child (PageName.isName_of_parse? parsed) (tended.ordinary.unlinked name)]
      simp only [files]
    rw [spelled]
    constructor
    · rintro ⟨name, -, parsed, file⟩
      obtain ⟨short, i, reversed, there⟩ := (seen name parsed).mp file
      exact ⟨name, i, reversed, parsed, short, there⟩
    · rintro ⟨name, i, reversed, parsed, short, there⟩
      exact ⟨name, tended.leads.mem_names listed ((files _ i reversed).mpr there), parsed,
        (seen name parsed).mpr ⟨short, i, reversed, there⟩⟩
  have discovered := discovered tended.orderly tended.ordinary.unlinked found
  have tidyU : Tidy place u := by
    intro name temporary short i reversed there
    have listed := tended.leads.mem_names listed (discovered.fewer _ _ there)
    exact discovered.cleared name listed temporary short i reversed there
  obtain ⟨-, -, tidyW, -⟩ := formatted tendedU.orderly tendedU.ordinary.unlinked tidyU formats
  obtain ⟨tendedW, zeroed, others⟩ := tended_format tendedU tidyU formats
  refine ⟨same, tendedW, tidyW, fun p inside free => ?_, fun name lasting other i reversed => ?_⟩
  · exact zeroed p (mem_configured.mpr inside) fun listed => free ((claimed p).mp listed)
  · have apart : ∀ n, place.child name = place.child n → name = n := fun n same => by
      simpa [Path.child] using same
    rw [others, entriesU, files]
    · rintro n temporary same
      rw [← apart n same, lasting] at temporary
      cases temporary
    · intro p mem unknown same
      exact other p (mem_configured.mp mem) (fun spelled => unknown ((claimed p).mpr spelled)) (apart _ same)

/-- A page whose file is there is never reported missing, whatever is asked of the store. -/
theorem run_found {k : Checkpoint.Checkpointer} (orderly : k.store.disk.Orderly k.log.file k.store.dir place)
    (agrees : k.store.cache.Agrees k.store.readFile) {i : Nat} {reversed : Bytes}
    (there : k.store.disk.slot? place (.page p) = some (.file i reversed)) (calls : List Call) :
    ((k.run calls).2.store.read p).1 ≠ .error (.pageNotFound p) ∧
      ((k.run calls).2.store.fetch p).1 ≠ .error (.pageNotFound p) := by
  have tends : Checkpoint.Checkpointer.Tends k.log.file place (k.store.table place) k :=
    ⟨shows_table orderly agrees, rfl⟩
  have present : (k.store.table place).contents p ≠ .error (.pageNotFound p) := by
    have read : (k.store.table place).contents p = _ := readFile_eq orderly p
    rw [read, there, bytesOf]
    split
    · simp
    · simp
  obtain ⟨-, after⟩ := tends.run calls
  have found := Table.run_found present calls
  exact ⟨(after.shows.read p).1 ▸ found, (after.shows.fetch p).1 ▸ found⟩

/-- Opening a store leaves no page dirty and nothing in which bytes were gathering, and keeps every other file
as it is. Each page that the settings ask for has a file then, its own as before or else one of zero bytes,
unless only files of other names spell its number. A page that has a file is never reported missing again,
whatever is asked of the store. -/
theorem openAt_available {c : Config} {capacity : Nat} {policy : CachePolicy} {counters : Counters}
    {t : Trouble} {s : PageStore} {made : Volume} (sound : v.Sound)
    (directory : v.createDirectories dir = .ok made) (leads : made.follow dir = .ok place)
    (ordinary : v.Ordinary place)
    (opened : openAt c dir (.create capacity policy) counters v t = (.ok s, w)) :
    s.dirty = [] ∧
    (∀ name, PageName.isTemporary name = true → s.disk.isFile (dir.child name) = false) ∧
    (∀ name i reversed, PageName.isTemporary name = false →
      v.entry? (place.child name) = some (.file i reversed) →
      s.disk.entry? (place.child name) = some (.file i reversed)) ∧
    ∀ p < c.pageCount,
      (¬ Claimed place v p → s.disk.read (s.file p) = .ok (List.replicate c.pageSize 0)) ∧
      (s.disk.isFile (s.file p) = true ↔
        (Claimed place v p → ∃ i reversed, v.slot? place (.page p) = some (.file i reversed))) ∧
      (s.disk.isFile (s.file p) = true → ∀ (k : Checkpoint.Checkpointer) (calls : List Call),
        k.store = s → s.disk.Orderly k.log.file dir place →
        ((k.run calls).2.store.read p).1 ≠ .error (.pageNotFound p) ∧
        ((k.run calls).2.store.fetch p).1 ≠ .error (.pageNotFound p)) := by
  obtain ⟨rfl, tended, tidy, zeroed, lasting⟩ := openAt_entries sound directory leads ordinary opened
  have claims : ∀ p i reversed, v.slot? place (.page p) = some (.file i reversed) → Claimed place v p :=
    fun p i reversed there => ⟨_, i, reversed, PageName.parse?_render p, (Slot.page p).short, there⟩
  have own : ∀ p, Claimed place v p → ∀ i reversed, w.slot? place (.page p) = some (.file i reversed) ↔
      v.slot? place (.page p) = some (.file i reversed) := by
    intro p claimed
    refine lasting _ (PageName.isTemporary_render p) fun p' _ free same => ?_
    cases Slot.name_injective (x := .page p) same
    exact free claimed
  have seen : ∀ p, w.isFile (fileIn dir p) = true ↔
      ∃ i reversed, w.slot? place (.page p) = some (.file i reversed) := fun p =>
    (tended.leads.isFile_child (Slot.page p).isName (tended.ordinary.unlinked _)).trans
      (and_iff_right (Slot.page p).short)
  refine ⟨rfl, fun name temporary => ?_, fun name i reversed other there => ?_, fun p inside =>
    ⟨fun free => ?_, ⟨fun file spelled => ?_, fun kept => ?_⟩, fun file k calls store orderly => ?_⟩⟩
  · refine Bool.eq_false_iff.mpr fun file => ?_
    obtain ⟨short, i, reversed, there⟩ := (tended.leads.isFile_child (isName_of_isTemporary temporary)
      (tended.ordinary.unlinked name)).mp file
    exact tidy name temporary short i reversed there
  · refine (lasting name other (fun p _ free same => ?_) i reversed).mpr there
    rw [same] at there
    exact free (claims p i reversed there)
  · obtain ⟨i, here⟩ := zeroed p inside free
    exact (tended.orderly.read_eq_ok (x := .page p)).mpr ⟨i, by rw [here, List.reverse_replicate]⟩
  · obtain ⟨i, reversed, there⟩ := (seen p).mp file
    exact ⟨i, reversed, (own p spelled i reversed).mp there⟩
  · refine (seen p).mpr ?_
    by_cases spelled : Claimed place v p
    · obtain ⟨i, reversed, there⟩ := kept spelled
      exact ⟨i, reversed, (own p spelled i reversed).mpr there⟩
    · obtain ⟨i, here⟩ := zeroed p inside spelled
      exact ⟨i, _, here⟩
  · obtain ⟨i, reversed, there⟩ := (seen p).mp file
    have same : k.store.disk.Orderly k.log.file k.store.dir place := by
      rw [store]
      exact orderly
    have agrees : k.store.cache.Agrees k.store.readFile := by
      rw [store]
      exact Cache.agrees_create capacity policy _
    have there : k.store.disk.slot? place (.page p) = some (.file i reversed) := by
      rw [store]
      exact there
    exact run_found same agrees there calls

/-- A directory with a page, a page that was being written, and a directory that looks like one. -/
def leftover : Volume :=
  ⟨[(["pages"], .directory), (["pages", "page_0.dbp"], .file 0 [4, 3, 2, 1]),
    (["pages", "page_1.dbp.tmp"], .file 1 [9]), (["pages", "page_7.dbp"], .directory)], 2⟩

theorem openAt_available_leftover :
    let c : Config := { pageSize := 4, pageCount := 3 }
    ∃ s w, openAt c ["pages"] (.create 1 .evictOldest) {} leftover .none = (.ok s, w) ∧ s.dirty = [] ∧
      s.disk.isFile (["pages", "page_1.dbp.tmp"] : Path) = false ∧
      s.disk.entry? ["pages", "page_0.dbp"] = some (.file 0 [4, 3, 2, 1]) ∧
      s.disk.read (s.file 1) = .ok [0, 0, 0, 0] ∧ s.disk.isFile (s.file 2) = true := by
  intro c
  have sound : leftover.Sound := ⟨by decide, by decide⟩
  have entries : ∀ name e, leftover.entry? (Path.child ["pages"] name) = some e →
      (name, e) = ("page_0.dbp", .file 0 [4, 3, 2, 1]) ∨ (name, e) = ("page_1.dbp.tmp", .file 1 [9]) ∨
        (name, e) = ("page_7.dbp", .directory) := by
    intro name e there
    rw [entry?_of_ne_nil _ (child_ne_nil ["pages"] name), List.lookup_eq_some_iff] at there
    obtain ⟨front, back, entries, -⟩ := there
    have mem : (Path.child ["pages"] name, e) ∈ leftover.entries := by
      rw [entries]
      exact List.mem_append_right front List.mem_cons_self
    simpa [leftover, Path.child] using mem
  have ordinary : leftover.Ordinary ["pages"] := by
    intro name e there
    rcases entries name e there with same | same | same
    all_goals cases same
    · exact .inr ⟨_, _, rfl⟩
    · exact .inr ⟨_, _, rfl⟩
    · exact .inl rfl
  have free : ∀ p, p ≠ 0 → ¬ Claimed ["pages"] leftover p := by
    rintro p other ⟨name, i, reversed, parsed, -, there⟩
    rcases entries name _ there with same | same | same
    all_goals cases same
    · have zero : PageName.parse? "page_0.dbp" = some 0 := PageName.parse?_render 0
      exact other (Option.some.inj (parsed.symm.trans zero))
    · have none : PageName.parse? "page_1.dbp.tmp" = none := by decide
      cases none.symm.trans parsed
  have succeeds : (openAt c ["pages"] (.create 1 .evictOldest) {} leftover .none).1.isOk = true := by
    decide +kernel
  rcases opened : openAt c ["pages"] (.create 1 .evictOldest) {} leftover .none with ⟨_ | s, w⟩
  · rw [opened] at succeeds
    cases succeeds
  · obtain ⟨clean, tidy, kept, pages⟩ :=
      openAt_available sound (by rfl) (by rfl) ordinary opened
    exact ⟨s, w, rfl, clean, tidy "page_1.dbp.tmp" (by decide),
      kept "page_0.dbp" 0 [4, 3, 2, 1] (PageName.isTemporary_render 0) (by rfl),
      (pages 1 (by decide)).1 (free 1 (by decide)),
      (pages 2 (by decide)).2.1.mpr fun claimed => absurd claimed (free 2 (by decide))⟩

/-- A file whose name spells the number of a page in another way keeps the page from being made. -/
theorem openAt_misses_alias :
    let c : Config := { pageSize := 4, pageCount := 3 }
    let v : Volume := ⟨[(["pages"], .directory), (["pages", "page_+1.dbp"], .file 0 [4, 3, 2, 1])], 1⟩
    ∃ s w, openAt c ["pages"] (.create 1 .evictOldest) {} v .none = (.ok s, w) ∧ 1 < c.pageCount ∧
      s.disk.isFile (s.file 1) = false ∧ (s.fetch 1).1 = .error (.pageNotFound 1) := by
  intro c v
  have missing : (openAt c ["pages"] (.create 1 .evictOldest) {} v .none).1.map
      (fun s => (s.disk.isFile (s.file 1), (s.fetch 1).1)) = .ok (false, .error (.pageNotFound 1)) := by
    decide +kernel
  rcases opened : openAt c ["pages"] (.create 1 .evictOldest) {} v .none with ⟨_ | s, w⟩
  all_goals rw [opened] at missing
  · cases missing
  · obtain ⟨absent, unread⟩ := Prod.mk.inj (Except.ok.inj missing)
    exact ⟨s, w, rfl, by decide, absent, unread⟩

end PageStore

end PageJournal
