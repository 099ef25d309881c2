import PageJournal.Proofs.Page.Calls
import PageJournal.Proofs.Volume.Entries
import PageJournal.Proofs.Volume.Walk

/-! What the page files' calls leave alone. They work in one directory that holds no link, so they
keep every directory, every link, and every file that is not in there. -/
namespace PageJournal

namespace Volume

/-- An entry that the page files' calls keep: a directory, a link, or the file of an identity. -/
def Spared (k : Nat) : Entry → Prop
  | .file own _ => own = k
  | .directory | .link _ => True
  | .device _ => False

/-- An entry that may stand among the page files: no link, and another file, already numbered. -/
def Plain (k next : Nat) : Entry → Prop
  | .file own _ => own ≠ k ∧ own < next
  | .link _ => False
  | .directory | .device _ => True

theorem Plain.mono {k next later : Nat} {e : Entry} (plain : Plain k next e) (le : next ≤ later) :
    Plain k later e := by
  cases e with
  | file own reversed => exact ⟨plain.1, Nat.lt_of_lt_of_le plain.2 le⟩
  | directory => trivial
  | link target => exact plain
  | device d => trivial

/-- What is to be kept is kept, nothing new stands outside a directory, and what takes the place of a
plain entry is one. -/
structure Spares (place : Path) (k : Nat) (v w : Volume) : Prop where
  identity : v.nextIdentity ≤ w.nextIdentity
  kept : ∀ p e, v.entry? p = some e → Spared k e → w.entry? p = some e
  outside : ∀ p, (∀ name, p ≠ place.child name) → v.entry? p = none → w.entry? p = none
  plain : ∀ p, (∀ e, v.entry? p = some e → Plain k v.nextIdentity e) →
    ∀ e, w.entry? p = some e → Plain k w.nextIdentity e

/-- A directory for page files, and a file that is none of them. -/
structure Housed (dir place : Path) (k : Nat) (v : Volume) : Prop where
  leads : v.LeadsTo dir place
  old : k < v.nextIdentity
  plain : ∀ name e, v.entry? (place.child name) = some e → Plain k v.nextIdentity e

theorem Spares.refl (place : Path) (k : Nat) (v : Volume) : Spares place k v v :=
  ⟨Nat.le_refl _, fun _ _ there _ => there, fun _ _ gone => gone, fun _ plain => plain⟩

theorem Spares.trans {place : Path} {k : Nat} {u v w : Volume} (first : Spares place k u v)
    (later : Spares place k v w) : Spares place k u w :=
  ⟨Nat.le_trans first.identity later.identity,
    fun p e there spared => later.kept p e (first.kept p e there spared) spared,
    fun p out gone => later.outside p out (first.outside p out gone),
    fun p plain => later.plain p (first.plain p plain)⟩

theorem Spares.leadsTo {place : Path} {k : Nat} {v w : Volume} (spares : Spares place k v w) {way target : Path}
    (leads : v.LeadsTo way target) : w.LeadsTo way target :=
  leads.keep (fun p there => spares.kept p _ there trivial)
    (fun p _ there => spares.kept p _ there trivial)

variable {dir place : Path} {k : Nat}

theorem Housed.spared {v w : Volume} (housed : Housed dir place k v) (spares : Spares place k v w) :
    Housed dir place k w :=
  ⟨spares.leadsTo housed.leads, Nat.lt_of_lt_of_le housed.old spares.identity,
    fun name => spares.plain _ (housed.plain name)⟩

theorem Housed.noLink {v : Volume} (housed : Housed dir place k v) (name : String) (link : Route) :
    v.entry? (place.child name) ≠ some (.link link) :=
  fun there => housed.plain name _ there

/-- A change of one entry in the directory. -/
theorem Housed.change {v w : Volume} (housed : Housed dir place k v) (name : String)
    (same : ∀ p, p ≠ place.child name → w.entry? p = v.entry? p)
    (file : v.entry? (place.child name) ≠ some .directory)
    (plain : ∀ e, w.entry? (place.child name) = some e → Plain k w.nextIdentity e)
    (identity : v.nextIdentity ≤ w.nextIdentity) : Spares place k v w ∧ Housed dir place k w := by
  have spares : Spares place k v w := by
    refine ⟨identity, fun p e there spared => ?_, fun p out gone => ?_, fun p old e there => ?_⟩
    · by_cases here : p = place.child name
      · rw [here] at there
        have plain := housed.plain name e there
        cases e with
        | file own reversed => exact absurd spared plain.1
        | directory => exact absurd there file
        | link target => exact absurd plain id
        | device d => exact absurd spared id
      · rw [same p here]
        exact there
    · rw [same p (out name)]
      exact gone
    · by_cases here : p = place.child name
      · exact plain e (here ▸ there)
      · rw [same p here] at there
        exact (old e there).mono identity
  exact ⟨spares, housed.spared spares⟩

/-- An append to another file changes no entry but for its bytes. -/
theorem Housed.append {v w : Volume} (housed : Housed dir place k v) {h : Handle} {bytes : Bytes}
    (other : h ≠ .file k) (appended : v.append h bytes = .ok w) :
    Spares place k v w ∧ Housed dir place k w := by
  cases h with
  | device d =>
    rw [append_device appended]
    exact ⟨Spares.refl place k v, housed⟩
  | file i =>
    have differs : i ≠ k := fun same => other (congrArg Handle.file same)
    have entries := entry?_append appended
    have identity := nextIdentity_append appended
    have spares : Spares place k v w := by
      refine ⟨Nat.le_of_eq identity.symm, fun p e there spared => ?_, fun p out gone => ?_,
        fun p old e there => ?_⟩
      · rw [entries, there]
        cases e with
        | file own reversed =>
          have own : own ≠ i := fun same => differs (same.symm.trans spared)
          simp [Entry.extended, own]
        | directory => rfl
        | link target => rfl
        | device d => exact absurd spared id
      · rw [entries, gone]
        rfl
      · rw [entries, Option.map_eq_some_iff] at there
        obtain ⟨before, there, rfl⟩ := there
        have plain := (old before there).mono (Nat.le_of_eq identity.symm)
        cases before with
        | file own reversed =>
          rw [Entry.extended]
          split <;> exact plain
        | directory => exact plain
        | link target => exact plain
        | device d => exact plain
    exact ⟨spares, housed.spared spares⟩

/-- A call that keeps what is to be kept whenever it succeeds. -/
def Safe (dir place : Path) (k : Nat) (act : Volume → Except IoFault Volume) : Prop :=
  ∀ v w, Housed dir place k v → act v = .ok w → Spares place k v w ∧ Housed dir place k w

/-- What every call keeps, calls in a row keep, wherever they end. -/
theorem perform_keeps {P : Volume → Prop} {t : Trouble} {steps : List FileStep}
    (keeps : ∀ s ∈ steps, ∀ v w, P v → s.2 v = .ok w → P w) {v : Volume} (start : P v) :
    P (v.perform t steps).2 := by
  induction steps generalizing v with
  | nil => exact start
  | cons s rest ih =>
    obtain ⟨call, act⟩ := s
    unfold Volume.perform
    split
    · exact start
    · split
      · exact start
      · next w done =>
        exact ih (fun s mem => keeps s (List.mem_cons_of_mem _ mem)) (keeps _ List.mem_cons_self v w start done)

theorem Housed.perform {t : Trouble} {steps : List FileStep}
    (safe : ∀ s ∈ steps, Safe dir place k s.2) {v : Volume} (housed : Housed dir place k v) :
    Spares place k v (v.perform t steps).2 ∧ Housed dir place k (v.perform t steps).2 :=
  perform_keeps (P := fun u => Spares place k v u ∧ Housed dir place k u)
    (fun s mem u w held done => (safe s mem u w held.2 done).imp held.1.trans id)
    ⟨Spares.refl place k v, housed⟩

section Calls

variable {name : String} (proper : IsName name)

include proper

theorem safe_create : Safe dir place k fun v =>
    (v.openTruncate (dir.child name : Path)).map (·.2) := by
  intro v w housed done
  obtain ⟨⟨h, after⟩, opened, same⟩ := map_eq_ok.mp done
  subst same
  unfold openTruncate openWrite at opened
  obtain ⟨found, reached, opened⟩ := bind_eq_ok.mp opened
  have here := housed.leads.reach_child_eq proper (housed.noLink name) reached
  subst here
  have put := fun e => entry?_put (v := v) (child_ne_nil place name) e
  split at opened
  · next none =>
    cases opened
    refine housed.change name (fun p other => ?_) (by simp [none]) (fun e there => ?_)
      (Nat.le_succ _)
    · exact (put _ p).trans (if_neg other)
    · have new := ((put _ _).trans (if_pos rfl)).symm.trans there
      cases new
      exact ⟨Nat.ne_of_gt housed.old, Nat.lt_succ_self _⟩
  · next i reversed file =>
    cases opened
    refine housed.change name (fun p other => ?_) (by simp [file]) (fun e there => ?_)
      (Nat.le_refl _)
    · exact (put _ p).trans (if_neg other)
    · have new := ((put _ _).trans (if_pos rfl)).symm.trans there
      cases new
      have plain := housed.plain name _ file
      exact plain
  · cases opened
  · cases opened
  · cases opened
    exact ⟨Spares.refl place k v, housed⟩

theorem safe_append (bytes : Bytes) : Safe dir place k (appendAt (dir.child name) bytes) := by
  intro v w housed done
  unfold appendAt at done
  obtain ⟨h, opened, appended⟩ := bind_eq_ok.mp done
  refine housed.append ?_ appended
  rintro rfl
  unfold handleAt at opened
  obtain ⟨found, reached, opened⟩ := bind_eq_ok.mp opened
  have here := housed.leads.reach_child_eq proper (housed.noLink name) reached
  subst here
  split at opened
  · next i reversed file =>
    cases opened
    exact (housed.plain name _ file).1 rfl
  all_goals cases opened

omit proper in
theorem safe_sync (p : Path) : Safe dir place k (syncAt p) := by
  intro v w housed done
  unfold syncAt at done
  obtain ⟨h, -, done⟩ := bind_eq_ok.mp done
  obtain ⟨-, -, done⟩ := bind_eq_ok.mp done
  cases done
  exact ⟨Spares.refl place k v, housed⟩

theorem safe_rename {new : String} (properNew : IsName new) :
    Safe dir place k fun v => v.rename (dir.child name) (dir.child new) := by
  intro v w housed done
  unfold rename at done
  obtain ⟨source, located, done⟩ := bind_eq_ok.mp done
  obtain ⟨target, locatedNew, done⟩ := bind_eq_ok.mp done
  have here := housed.leads.reach_child_eq proper (housed.noLink name) located
  have there := housed.leads.reach_child_eq properNew (housed.noLink new) locatedNew
  subst here there
  split at done
  · cases done
  · cases done
  · next e file present =>
    split at done
    · cases done
    · next free =>
      cases done
      -- the old name goes first, and then the new one changes
      have erase := entry?_erase (v := v) (child_ne_nil place name)
      have notDirectory : v.entry? (place.child new) ≠ some .directory := by
        simpa [isDirectoryAt] using free
      obtain ⟨first, housed'⟩ := housed.change (w := v.erase (place.child name)) name
        (fun p other => (erase p).trans (if_neg other))
        (fun directory => file (Option.some.inj (present.symm.trans directory)))
        (fun e gone => by
          rw [erase, if_pos rfl] at gone
          cases gone)
        (Nat.le_refl _)
      have put := entry?_put (v := v.erase (place.child name)) (child_ne_nil place new) e
      obtain ⟨second, housed''⟩ := housed'.change
        (w := (v.erase (place.child name)).put (place.child new) e) new
        (fun p other => (put p).trans (if_neg other))
        (fun directory => by
          rw [erase] at directory
          split at directory
          · cases directory
          · exact notDirectory directory)
        (fun e' now => by
          rw [put, if_pos rfl] at now
          cases now
          exact housed.plain name e present)
        (Nat.le_refl _)
      exact ⟨first.trans second, housed''⟩

theorem safe_remove : Safe dir place k fun v => v.removeFile (dir.child name : Path) := by
  intro v w housed done
  unfold removeFile at done
  obtain ⟨found, located, done⟩ := bind_eq_ok.mp done
  have here := housed.leads.reach_child_eq proper (housed.noLink name) located
  subst here
  have erase := entry?_erase (v := v) (child_ne_nil place name)
  split at done
  · cases done
  · cases done
  · next e file present =>
    split at done
    · cases done
    · cases done
      refine housed.change name (fun p other => (erase p).trans (if_neg other))
        (fun directory => file (Option.some.inj (present.symm.trans directory)))
        (fun e gone => ?_) (Nat.le_refl _)
      rw [erase, if_pos rfl] at gone
      cases gone

end Calls

theorem temporaryPath_child (dir : Path) (name : String) :
    temporaryPath (dir.child name) = dir.child (PageName.temporary name) := by
  simp [temporaryPath, Path.child, Path.parent]

theorem isName_of_head {name : String} {c : Char} {rest : List Char} (spelled : name.toList = c :: rest)
    (letter : c ≠ '.') : IsName name := by
  constructor
  all_goals
    rintro rfl
    cases spelled
    exact letter rfl

theorem toString_text (text : String) : toString text = text := rfl

theorem isName_page (page : PageId) : IsName (PageName.render page) := by
  have spelled : (PageName.render page).toList =
      'p' :: ("age_".toList ++ (toString page).toList ++ ".dbp".toList) := by
    simp [PageName.render, toString_text]
  exact isName_of_head spelled (by decide)

theorem isName_temporary (page : PageId) : IsName (PageName.temporary (PageName.render page)) := by
  have spelled : (PageName.temporary (PageName.render page)).toList =
      'p' :: ("age_".toList ++ (toString page).toList ++ ".dbp".toList ++ ".tmp".toList) := by
    simp [PageName.temporary, PageName.render, toString_text]
  exact isName_of_head spelled (by decide)

theorem isName_of_isTemporary {name : String} (temporary : PageName.isTemporary name = true) :
    IsName name := by
  constructor
  all_goals
    rintro rfl
    exact absurd temporary (by decide)

/-- Replacing a page's file keeps everything else. -/
theorem Housed.replace {v : Volume} (housed : Housed dir place k v) (t : Trouble) (page : PageId)
    (bytes : Bytes) (durable : Bool) :
    Spares place k v (v.replace t (PageStore.fileIn dir page) bytes durable).2 ∧
      Housed dir place k (v.replace t (PageStore.fileIn dir page) bytes durable).2 := by
  have file : PageStore.fileIn dir page = dir.child (PageName.render page) := rfl
  have temporary := temporaryPath_child dir (PageName.render page)
  have install : ∀ s ∈ installSteps (PageStore.fileIn dir page) bytes durable,
      Safe dir place k s.2 := by
    intro s mem
    unfold installSteps at mem
    rw [file, temporary] at mem
    simp only [List.mem_append, List.mem_cons, List.cons_append, List.not_mem_nil, or_false] at mem
    rcases mem with rfl | (mem | mem) | rfl
    · exact safe_create (isName_temporary page)
    · obtain ⟨i, -, rfl⟩ := List.mem_mapIdx.mp mem
      exact safe_append (isName_temporary page) _
    · split at mem
      · rw [List.mem_singleton.mp mem]
        exact safe_sync _
      · cases mem
    · exact safe_rename (isName_temporary page) (isName_page page)
  have settle : ∀ s ∈ settleSteps (PageStore.fileIn dir page) durable, Safe dir place k s.2 := by
    intro s mem
    unfold settleSteps at mem
    split at mem
    · rw [List.mem_singleton.mp mem]
      intro v w housed done
      obtain ⟨_, -, same⟩ := map_eq_ok.mp done
      rw [← same]
      exact ⟨Spares.refl place k v, housed⟩
    · cases mem
  have discard : ∀ s ∈ discardSteps (PageStore.fileIn dir page), Safe dir place k s.2 := by
    intro s mem
    unfold discardSteps at mem
    rw [file, temporary] at mem
    rw [List.mem_singleton.mp mem]
    exact safe_remove (isName_temporary page)
  obtain ⟨first, installed⟩ := housed.perform (t := t) install
  unfold Volume.replace
  split
  · next w done =>
    rw [done] at first installed
    obtain ⟨later, settled⟩ := installed.perform (t := t) settle
    exact ⟨first.trans later, settled⟩
  · next w done =>
    rw [done] at first installed
    obtain ⟨later, discarded⟩ := installed.perform (t := t) discard
    exact ⟨first.trans later, discarded⟩

end Volume

namespace PageStore

variable {place : Path} {k : Nat}

/-- The store goes on in the same directory, and what is to be kept is kept. -/
structure Keeps (place : Path) (k : Nat) (s after : PageStore) : Prop where
  dir : after.dir = s.dir
  spares : Volume.Spares place k s.disk after.disk
  housed : after.disk.Housed s.dir place k

theorem Keeps.of_disk {s after : PageStore} (housed : s.disk.Housed s.dir place k)
    (dir : after.dir = s.dir) (disk : after.disk = s.disk) : Keeps place k s after :=
  ⟨dir, disk ▸ .refl place k s.disk, disk ▸ housed⟩

theorem Keeps.of_replace {s after : PageStore} (housed : s.disk.Housed s.dir place k) (t : Trouble)
    (page : PageId) (bytes : Bytes) (durable : Bool) (dir : after.dir = s.dir)
    (disk : after.disk = (s.disk.replace t (s.file page) bytes durable).2) : Keeps place k s after := by
  obtain ⟨within, kept⟩ := Volume.Housed.replace housed t page bytes durable
  exact ⟨dir, disk ▸ within, disk ▸ kept⟩

theorem keeps_write {s : PageStore} (housed : s.disk.Housed s.dir place k) (page : PageId)
    (payload : Bytes) (t : Trouble) : Keeps place k s (s.write page payload t).2 := by
  rcases s.write_cases page payload t with ⟨fault, refused⟩ | ⟨cause, -, failed⟩ | ⟨-, done⟩
  · rw [refused]
    exact .of_disk housed rfl rfl
  · rw [failed]
    exact .of_replace housed t page _ false rfl rfl
  · rw [done]
    exact .of_replace housed t page _ false rfl rfl

theorem keeps_fetch {s : PageStore} (housed : s.disk.Housed s.dir place k) (page : PageId) :
    Keeps place k s (s.fetch page).2 := by
  obtain ⟨cache, counters, frame⟩ := s.fetch_frame page
  rw [frame]
  exact .of_disk housed rfl rfl

theorem housed_format {dir : Path} {v : Volume} (housed : v.Housed dir place k) (t : Trouble)
    (pageSize : Nat) (known pages : List PageId) :
    Volume.Spares place k v (format t dir pageSize known pages v).2 ∧
      (format t dir pageSize known pages v).2.Housed dir place k := by
  induction pages generalizing v with
  | nil => exact ⟨.refl place k v, housed⟩
  | cons page rest ih =>
    unfold format
    split
    · exact ih housed
    · obtain ⟨first, housed⟩ := housed.replace t page (List.replicate pageSize 0) true
      split
      · next done =>
        rw [done] at first housed
        exact ⟨first, housed⟩
      · next done =>
        rw [done] at first housed
        obtain ⟨later, housed⟩ := ih housed
        exact ⟨first.trans later, housed⟩

/-- What a name of the directory comes to when the pages are discovered. -/
theorem discover_cons {dir : Path} {v w : Volume} {name : String} {rest : List String}
    {known : List PageId} (done : discover dir v (name :: rest) = .ok (known, w)) :
    (v.isFile (dir.child name) = false ∧ discover dir v rest = .ok (known, w)) ∨
    (∃ u, PageName.isTemporary name = true ∧ v.removeFile (dir.child name) = .ok u ∧
      discover dir u rest = .ok (known, w)) ∨
    ∃ pages, PageName.isTemporary name = false ∧ known = (PageName.parse? name).toList ++ pages ∧
      discover dir v rest = .ok (pages, w) := by
  unfold discover at done
  split at done
  · next other => exact .inl ⟨by simpa using other, done⟩
  · split at done
    · next temporary =>
      obtain ⟨u, removed, later⟩ := bind_eq_ok.mp done
      exact .inr (.inl ⟨u, temporary, removed, later⟩)
    · next lasting =>
      obtain ⟨⟨pages, u⟩, found, same⟩ := bind_eq_ok.mp done
      cases same
      exact .inr (.inr ⟨pages, Bool.eq_false_iff.mpr lasting, rfl, found⟩)

/-- The stages of an opening that succeeds. -/
theorem openAt_eq_ok {c : Config} {dir : Path} {cache : Cache} {counters : Counters} {v w : Volume}
    {t : Trouble} {s : PageStore} (opened : openAt c dir cache counters v t = (.ok s, w)) :
    ∃ made names known u, v.createDirectories dir = .ok made ∧ made.names dir = .ok names ∧
      discover dir made names = .ok (known, u) ∧
      format t dir c.pageSize known (configured c) u = (.ok (), w) ∧
      s = ⟨w, dir, c.pageSize, c.pageCount, [], cache, counters⟩ := by
  unfold openAt at opened
  split at opened
  · cases opened
  · next made directory =>
    split at opened
    · cases opened
    · next names listed =>
      split at opened
      · cases opened
      · next known u found =>
        split at opened
        · cases opened
        · next formatted =>
          cases opened
          exact ⟨made, names, known, u, directory, listed, found, formatted, rfl⟩

end PageStore

end PageJournal
