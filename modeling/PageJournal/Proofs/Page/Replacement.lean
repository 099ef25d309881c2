import PageJournal.Proofs.Page.Slot

/-! What replacing a page's file does among the files of a page store. It goes through unless one of its
calls is refused, by the environment or because a directory is in the way; before the rename the page's
file is not touched, and from then on it holds the new bytes. -/
namespace PageJournal

namespace Volume

/-- What stands under the name of a page store's file. -/
def slot? (v : Volume) (place : Path) (x : Slot) : Option Entry := v.entry? (place.child x.name)

/-- A directory is in the way of that file. -/
def blocked (v : Volume) (place : Path) (x : Slot) : Bool := v.slot? place x = some .directory

/-- The files of a page store are plain ones, none of them the open file `h`, and what gathers has a file
of its own. -/
structure Orderly (h : Handle) (dir place : Path) (v : Volume) : Prop where
  leads : v.LeadsTo dir place
  kind : ∀ x e, v.slot? place x = some e → e = .directory ∨
    ∃ i reversed, e = .file i reversed ∧ i < v.nextIdentity ∧ h ≠ .file i
  apart : ∀ x p i a b, v.slot? place x = some (.file i a) →
    v.slot? place (.gathering p) = some (.file i b) → x = .gathering p
  known : ∀ k, h = .file k → k < v.nextIdentity

variable {h : Handle} {dir place : Path} {v w : Volume}

theorem child_slot_inj {x y : Slot} (same : place.child x.name = place.child y.name) : x = y := by
  refine Slot.name_injective ?_
  simpa [Path.child] using same

theorem Orderly.reach (orderly : Orderly h dir place v) (x : Slot) (purpose : Purpose) :
    v.reach purpose (dir.child x.name : Path) = .ok (place.child x.name) := by
  refine orderly.leads.reach_child x.isName x.short (fun link there => ?_) purpose
  rcases orderly.kind x _ there with same | ⟨i, reversed, same, -⟩
  all_goals cases same

theorem Orderly.read (orderly : Orderly h dir place v) (x : Slot) :
    v.read (dir.child x.name : Path) = match v.slot? place x with
      | none => .error .notFound
      | some (.file _ reversed) => .ok reversed.reverse
      | some _ => .error .isDirectory := by
  unfold Volume.read openRead Volume.follow
  rw [orderly.reach]
  rcases there : v.slot? place x with _ | e
  · have here : v.entry? (place.child x.name) = none := there
    simp only [bind, Except.bind, here]
  · have here : v.entry? (place.child x.name) = some e := there
    rcases orderly.kind x e there with rfl | ⟨i, reversed, rfl, -⟩
    all_goals simp only [bind, Except.bind, here, Source.read]

theorem Orderly.read_eq_ok (orderly : Orderly h dir place v) {x : Slot} {bytes : Bytes} :
    v.read (dir.child x.name : Path) = .ok bytes ↔ ∃ i, v.slot? place x = some (.file i bytes.reverse) := by
  rw [orderly.read]
  constructor
  · intro read
    split at read
    · cases read
    · next i reversed there =>
      cases read
      exact ⟨i, there.trans (by rw [List.reverse_reverse])⟩
    · cases read
  · rintro ⟨i, there⟩
    rw [there]
    exact congrArg _ (List.reverse_reverse bytes)

theorem Orderly.update (orderly : Orderly h dir place v) (leads : w.LeadsTo dir place) (x : Slot)
    (same : ∀ y, y ≠ x → w.slot? place y = v.slot? place y) (identity : v.nextIdentity ≤ w.nextIdentity)
    (new : ∀ e, w.slot? place x = some e → ∃ i reversed, e = .file i reversed ∧ i < w.nextIdentity ∧
      h ≠ .file i ∧ ∀ y, y ≠ x → ∀ other, v.slot? place y ≠ some (.file i other)) :
    Orderly h dir place w where
  leads := leads
  kind := by
    intro y e there
    by_cases here : y = x
    · obtain ⟨i, reversed, rfl, low, other, -⟩ := new e (here ▸ there)
      exact .inr ⟨i, reversed, rfl, low, other⟩
    · rw [same y here] at there
      rcases orderly.kind y e there with directory | ⟨i, reversed, file, low, other⟩
      · exact .inl directory
      · exact .inr ⟨i, reversed, file, Nat.lt_of_lt_of_le low identity, other⟩
  apart := by
    intro y p i a b first second
    by_cases hereY : y = x
    · by_cases hereP : .gathering p = x
      · rw [hereY, hereP]
      · obtain ⟨j, reversed, file, -, -, only⟩ := new _ (hereY ▸ first)
        cases file
        rw [same _ hereP] at second
        exact absurd second (only _ hereP b)
    · rw [same y hereY] at first
      by_cases hereP : .gathering p = x
      · obtain ⟨j, reversed, file, -, -, only⟩ := new _ (hereP ▸ second)
        cases file
        exact absurd first (only y hereY a)
      · rw [same _ hereP] at second
        exact orderly.apart y p i a b first second
  known k same := Nat.lt_of_lt_of_le (orderly.known k same) identity

/-- A change of one file, which is no directory and becomes none. -/
theorem Orderly.change (orderly : Orderly h dir place v) (x : Slot)
    (entries : ∀ p, p ≠ place.child x.name → w.entry? p = v.entry? p)
    (free : v.slot? place x ≠ some .directory) (identity : v.nextIdentity ≤ w.nextIdentity)
    (new : ∀ e, w.slot? place x = some e → ∃ i reversed, e = .file i reversed ∧ i < w.nextIdentity ∧
      h ≠ .file i ∧ ∀ y, y ≠ x → ∀ other, v.slot? place y ≠ some (.file i other)) :
    Orderly h dir place w ∧ ∀ y, y ≠ x → w.slot? place y = v.slot? place y := by
  have same : ∀ y, y ≠ x → w.slot? place y = v.slot? place y :=
    fun y other => entries _ fun path => other (child_slot_inj path)
  have kept : ∀ p e, v.entry? p = some e → (∀ i reversed, e ≠ .file i reversed) →
      w.entry? p = some e := by
    intro p e there other
    rw [entries p, there]
    rintro rfl
    rcases orderly.kind x e there with rfl | ⟨i, reversed, rfl, -⟩
    · exact free there
    · exact other i reversed rfl
  exact ⟨orderly.update (orderly.leads.keep (fun p there => kept p _ there nofun)
    fun p link there => kept p _ there nofun) x same identity new, same⟩

/-- Entries that go away leave the others in order. -/
theorem Orderly.fewer (orderly : Orderly h dir place v) (leads : w.LeadsTo dir place)
    (old : ∀ x e, w.slot? place x = some e → v.slot? place x = some e)
    (identity : w.nextIdentity = v.nextIdentity) : Orderly h dir place w where
  leads := leads
  kind x e there := identity ▸ orderly.kind x e (old x e there)
  apart x p i a b first second := orderly.apart x p i a b (old _ _ first) (old _ _ second)
  known k same := identity ▸ orderly.known k same

theorem Orderly.removeChild (orderly : Orderly h dir place v) {name : String} (proper : IsName name)
    (unlinked : ∀ link, v.entry? (place.child name) ≠ some (.link link))
    (removed : v.removeFile (dir.child name : Path) = .ok w) :
    Orderly h dir place w ∧
      ∀ q, w.entry? q = if q = place.child name then none else v.entry? q := by
  unfold removeFile at removed
  obtain ⟨found, located, removed⟩ := bind_eq_ok.mp removed
  have here := orderly.leads.reach_child_eq proper unlinked located
  subst here
  have erase := entry?_erase (v := v) (child_ne_nil place name)
  have fewer : ∀ q e, entry? (v.erase (place.child name)) q = some e → v.entry? q = some e := by
    intro q e left
    rw [erase] at left
    split at left
    · cases left
    · exact left
  split at removed
  · cases removed
  · cases removed
  · next e file present =>
    cases removed
    have kept : ∀ q e', v.entry? q = some e' → e' ≠ e →
        entry? (v.erase (place.child name)) q = some e' := by
      intro q e' there other
      rw [erase, if_neg, there]
      rintro rfl
      exact other (Option.some.inj (there.symm.trans present))
    refine ⟨orderly.fewer (orderly.leads.keep (fun q there => ?_) fun q link there => ?_)
      (fun x e => fewer _ e) rfl, erase⟩
    · exact kept q _ there (Ne.symm file)
    · refine kept q _ there ?_
      rintro rfl
      exact unlinked link present

/-- What is appended to the open file changes no file of the store. -/
theorem Orderly.append (orderly : Orderly h dir place v) {bytes : Bytes}
    (appended : v.append h bytes = .ok w) :
    Orderly h dir place w ∧ ∀ x, w.slot? place x = v.slot? place x := by
  cases h with
  | device d =>
    rw [append_device appended]
    exact ⟨orderly, fun _ => rfl⟩
  | file k =>
    have entries := entry?_append appended
    have identity := nextIdentity_append appended
    have slots : ∀ x, w.slot? place x = v.slot? place x := by
      intro x
      have extended : w.slot? place x = (v.slot? place x).map (Entry.extended k bytes) := entries _
      rw [extended]
      rcases there : v.slot? place x with _ | e
      · rfl
      · rcases orderly.kind x e there with rfl | ⟨i, reversed, rfl, -, other⟩
        · rfl
        · have apart : i ≠ k := fun same => other (congrArg Handle.file same.symm)
          simp [Entry.extended, apart]
    refine ⟨⟨?_, fun x e there => ?_, fun x p i a b first second => ?_, ?_⟩, slots⟩
    · refine orderly.leads.keep (fun q there => ?_) fun q link there => ?_
      all_goals
        rw [entries, there]
        rfl
    · rw [slots] at there
      rw [identity]
      exact orderly.kind x e there
    · rw [slots] at first second
      exact orderly.apart x p i a b first second
    · rw [identity]
      exact orderly.known

/-- Away from the two files of a page nothing has come or gone or is something else now. -/
def Beside (place : Path) (p : PageId) (v w : Volume) : Prop :=
  ∀ q, q ≠ place.child (Slot.page p).name → q ≠ place.child (Slot.gathering p).name →
    (w.entry? q).map Entry.shape = (v.entry? q).map Entry.shape

theorem Beside.trans {p : PageId} {u : Volume} (first : Beside place p u v)
    (later : Beside place p v w) : Beside place p u w :=
  fun q page gathering => (later q page gathering).trans (first q page gathering)

theorem beside_change {p : PageId} (entries : ∀ q, q ≠ place.child (Slot.page p).name →
    q ≠ place.child (Slot.gathering p).name → w.entry? q = v.entry? q) : Beside place p v w :=
  fun q page gathering => congrArg (Option.map Entry.shape) (entries q page gathering)

/-- At most the file in which the page's bytes gather has changed. -/
structure Kept (h : Handle) (dir place : Path) (p : PageId) (v w : Volume) : Prop where
  orderly : Orderly h dir place w
  same : ∀ y, y ≠ .gathering p → w.slot? place y = v.slot? place y
  blocked : w.blocked place (.gathering p) = v.blocked place (.gathering p)
  beside : Beside place p v w

theorem Kept.refl (orderly : Orderly h dir place v) (p : PageId) : Kept h dir place p v v :=
  ⟨orderly, fun _ _ => rfl, rfl, fun _ _ _ => rfl⟩

theorem Kept.trans {p : PageId} {u : Volume} (first : Kept h dir place p u v)
    (later : Kept h dir place p v w) : Kept h dir place p u w :=
  ⟨later.orderly, fun y apart => (later.same y apart).trans (first.same y apart),
    later.blocked.trans first.blocked, first.beside.trans later.beside⟩

/-- The new bytes of a page are gathering; nothing else has changed. -/
structure Gathers (h : Handle) (dir place : Path) (p : PageId) (v : Volume) (written : Bytes)
    (w : Volume) : Prop where
  orderly : Orderly h dir place w
  here : ∃ i, w.slot? place (.gathering p) = some (.file i written.reverse)
  free : v.slot? place (.gathering p) ≠ some .directory
  same : ∀ y, y ≠ .gathering p → w.slot? place y = v.slot? place y
  beside : Beside place p v w

variable {p : PageId} {written : Bytes}

theorem Gathers.kept (gathers : Gathers h dir place p v written w) : Kept h dir place p v w := by
  obtain ⟨i, here⟩ := gathers.here
  exact ⟨gathers.orderly, gathers.same, by simp [blocked, here, gathers.free], gathers.beside⟩

/-- The first call opens an empty file for the new bytes. -/
theorem Orderly.create (orderly : Orderly h dir place v) (p : PageId)
    (free : v.slot? place (.gathering p) ≠ some .directory) :
    ∃ opened, v.openTruncate (dir.child (Slot.gathering p).name : Path) = .ok opened ∧
      Gathers h dir place p v [] opened.2 := by
  have named := child_ne_nil place (Slot.gathering p).name
  -- whatever stood there, the file that stands there now has an identity of its own
  have gathers : ∀ (i : Nat) (w : Volume), i < w.nextIdentity → v.nextIdentity ≤ w.nextIdentity →
      h ≠ .file i → (∀ y, y ≠ .gathering p → ∀ other, v.slot? place y ≠ some (.file i other)) →
      (∀ q, w.entry? q = if q = place.child (Slot.gathering p).name then some (.file i [])
        else v.entry? q) → Gathers h dir place p v [] w := by
    intro i w low later other only entries
    have here : w.slot? place (.gathering p) = some (.file i []) := (entries _).trans (if_pos rfl)
    obtain ⟨orderly, same⟩ := orderly.change (w := w) (.gathering p)
      (fun q apart => (entries q).trans (if_neg apart)) free later
      (fun e there => ⟨i, [], Option.some.inj (there.symm.trans here), low, other, only⟩)
    exact ⟨orderly, ⟨i, here⟩, free, same,
      beside_change fun q _ apart => (entries q).trans (if_neg apart)⟩
  unfold openTruncate openWrite
  rw [orderly.reach]
  rcases there : v.slot? place (.gathering p) with _ | e
  · have missing : v.entry? (place.child (Slot.gathering p).name) = none := there
    simp only [bind, Except.bind, missing]
    refine ⟨_, rfl, gathers v.nextIdentity _ (Nat.lt_succ_self _) (Nat.le_succ _) ?_ ?_
      (entry?_addFile v named)⟩
    · intro same
      exact Nat.lt_irrefl _ (orderly.known _ same)
    · intro y _ other known
      rcases orderly.kind y _ known with same | ⟨i, reversed, same, low, -⟩
      all_goals cases same
      exact Nat.lt_irrefl _ low
  · rcases orderly.kind _ e there with rfl | ⟨i, reversed, rfl, low, other⟩
    · exact absurd there free
    · have present : v.entry? (place.child (Slot.gathering p).name) = some (.file i reversed) := there
      simp only [bind, Except.bind, present]
      refine ⟨_, rfl, gathers i _ low (Nat.le_refl _) other ?_ (entry?_put named _)⟩
      intro y apart bytes known
      exact apart (orderly.apart y _ i bytes reversed known there)

theorem Gathers.handleAt (gathers : Gathers h dir place p v written w) :
    ∃ i, w.handleAt (dir.child (Slot.gathering p).name) = .ok (.file i) ∧
      w.slot? place (.gathering p) = some (.file i written.reverse) := by
  obtain ⟨i, here⟩ := gathers.here
  have present : w.entry? (place.child (Slot.gathering p).name) = some (.file i written.reverse) := here
  refine ⟨i, ?_, here⟩
  unfold Volume.handleAt Volume.follow
  rw [gathers.orderly.reach]
  simp only [bind, Except.bind, present]

theorem Gathers.append (gathers : Gathers h dir place p v written w) (chunk : Bytes) :
    ∃ after, appendAt (dir.child (Slot.gathering p).name) chunk w = .ok after ∧
      Gathers h dir place p v (written ++ chunk) after := by
  obtain ⟨i, opened, here⟩ := gathers.handleAt
  obtain ⟨after, appended⟩ : ∃ after, w.append (.file i) chunk = .ok after := ⟨_, rfl⟩
  refine ⟨after, by simp only [appendAt, opened, bind, Except.bind, appended], ?_⟩
  have entries := entry?_append appended
  have identity := nextIdentity_append appended
  have slots : ∀ y, after.slot? place y = (w.slot? place y).map (Entry.extended i chunk) :=
    fun y => entries _
  have grown : after.slot? place (.gathering p) = some (.file i (written ++ chunk).reverse) := by
    simp [slots, here, Entry.extended]
  have same : ∀ y, y ≠ .gathering p → after.slot? place y = w.slot? place y := by
    intro y apart
    rw [slots]
    rcases there : w.slot? place y with _ | e
    · rfl
    · rcases gathers.orderly.kind y e there with rfl | ⟨j, reversed, rfl, -⟩
      · rfl
      · have other : j ≠ i := by
          rintro rfl
          exact apart (gathers.orderly.apart y _ j _ _ there here)
        simp [Entry.extended, other]
  have beside : Beside place p w after := by
    intro q _ _
    rw [entries, Option.map_map]
    exact congrFun (congrArg Option.map (funext (Entry.shape_extended i chunk))) _
  refine ⟨?_, ⟨i, grown⟩, gathers.free, fun y apart => (same y apart).trans (gathers.same y apart),
    gathers.beside.trans beside⟩
  refine gathers.orderly.update ?_ (.gathering p) same (Nat.le_of_eq identity.symm) fun e there => ?_
  · refine gathers.orderly.leads.keep (fun q there => ?_) fun q link there => ?_
    all_goals
      rw [entries, there]
      rfl
  · cases Option.some.inj (there.symm.trans grown)
    rcases gathers.orderly.kind _ _ here with same | ⟨j, reversed, same, low, other⟩
    all_goals cases same
    exact ⟨i, _, rfl, identity ▸ low, other,
      fun y apart bytes known => apart (gathers.orderly.apart y _ i _ _ known here)⟩

theorem Gathers.sync (gathers : Gathers h dir place p v written w) :
    syncAt (dir.child (Slot.gathering p).name) w = .ok w := by
  obtain ⟨i, opened, -⟩ := gathers.handleAt
  simp only [syncAt, opened, bind, Except.bind, Volume.sync]

/-- The page's file has been replaced. -/
structure Installed (h : Handle) (dir place : Path) (p : PageId) (v : Volume) (bytes : Bytes)
    (w : Volume) : Prop where
  orderly : Orderly h dir place w
  page : ∃ i, w.slot? place (.page p) = some (.file i bytes.reverse)
  gone : w.slot? place (.gathering p) = none
  free : v.slot? place (.page p) ≠ some .directory ∧ v.slot? place (.gathering p) ≠ some .directory
  same : ∀ y, y ≠ .page p → y ≠ .gathering p → w.slot? place y = v.slot? place y
  beside : Beside place p v w

theorem Gathers.rename (gathers : Gathers h dir place p v written w) :
    w.rename (dir.child (Slot.gathering p).name) (dir.child (Slot.page p).name) =
        .error .isDirectory ∧ v.slot? place (.page p) = some .directory ∨
      v.slot? place (.page p) ≠ some .directory ∧
      ∃ after, w.rename (dir.child (Slot.gathering p).name) (dir.child (Slot.page p).name) = .ok after ∧
        Installed h dir place p v written after := by
  obtain ⟨i, here⟩ := gathers.here
  have other : Slot.page p ≠ Slot.gathering p := nofun
  have target : w.slot? place (.page p) = v.slot? place (.page p) := gathers.same _ other
  have present : w.entry? (place.child (Slot.gathering p).name) = some (.file i written.reverse) := here
  unfold Volume.rename locate
  rw [gathers.orderly.reach, gathers.orderly.reach]
  simp only [bind, Except.bind, present]
  by_cases blocked : v.slot? place (.page p) = some .directory
  · left
    have inTheWay : w.entry? (place.child (Slot.page p).name) = some .directory := target.trans blocked
    exact ⟨if_pos (by simp [isDirectoryAt, inTheWay]), blocked⟩
  · right
    have free : ¬ w.isDirectoryAt (place.child (Slot.page p).name) = true := by
      have notDirectory : w.entry? (place.child (Slot.page p).name) ≠ some .directory :=
        fun there => blocked (target.symm.trans there)
      simpa [isDirectoryAt] using notDirectory
    rw [if_neg free]
    refine ⟨blocked, _, rfl, ?_⟩
    have erase := entry?_erase (v := w) (child_ne_nil place (Slot.gathering p).name)
    have put := entry?_put (v := w.erase (place.child (Slot.gathering p).name))
      (child_ne_nil place (Slot.page p).name) (.file i written.reverse)
    rcases gathers.orderly.kind _ _ here with same | ⟨j, reversed, same, low, foreign⟩
    all_goals cases same
    -- first the old name goes, then the new one is taken over
    obtain ⟨erased, first⟩ := gathers.orderly.change
      (w := w.erase (place.child (Slot.gathering p).name)) (.gathering p)
      (fun q apart => (erase q).trans (if_neg apart)) (by simp [here]) (Nat.le_refl _) (fun e there => by
        rw [slot?, erase, if_pos rfl] at there
        cases there)
    have gone : Volume.slot? (w.erase (place.child (Slot.gathering p).name)) place (.gathering p) = none :=
      (erase _).trans (if_pos rfl)
    obtain ⟨orderly, second⟩ := erased.change (.page p) (fun q apart => (put q).trans (if_neg apart))
      (by rw [first _ other, target]; exact blocked) (Nat.le_refl _) (fun e there => by
        rw [slot?, put, if_pos rfl] at there
        cases there
        refine ⟨i, _, rfl, low, foreign, fun y apart bytes known => ?_⟩
        by_cases temporary : y = .gathering p
        · rw [temporary, gone] at known
          cases known
        · rw [first y temporary] at known
          exact temporary (gathers.orderly.apart y _ i _ _ known here))
    refine ⟨orderly, ⟨i, (put _).trans (if_pos rfl)⟩, ?_, ⟨blocked, gathers.free⟩,
      fun y page temporary => ?_, gathers.beside.trans (beside_change fun q page temporary => ?_)⟩
    · rw [second _ (Ne.symm other), gone]
    · rw [second y page, first y temporary, gathers.same y temporary]
    · rw [put, if_neg page, erase, if_neg temporary]

theorem Orderly.remove (orderly : Orderly h dir place w) {p : PageId} {after : Volume}
    (removed : w.removeFile (dir.child (Slot.gathering p).name : Path) = .ok after) :
    Kept h dir place p w after := by
  unfold removeFile locate at removed
  rw [orderly.reach] at removed
  rcases there : w.slot? place (.gathering p) with _ | e
  · have missing : w.entry? (place.child (Slot.gathering p).name) = none := there
    simp only [bind, Except.bind, missing] at removed
    cases removed
  · have present : w.entry? (place.child (Slot.gathering p).name) = some e := there
    rcases orderly.kind _ e there with rfl | ⟨i, reversed, rfl, -⟩
    all_goals simp only [bind, Except.bind, present, Bool.false_eq_true, if_false] at removed
    all_goals cases removed
    have erase := entry?_erase (v := w) (child_ne_nil place (Slot.gathering p).name)
    have gone : Volume.slot? (w.erase (place.child (Slot.gathering p).name)) place (.gathering p) =
        none := (erase _).trans (if_pos rfl)
    obtain ⟨erased, same⟩ := orderly.change (w := w.erase (place.child (Slot.gathering p).name))
      (.gathering p) (fun q apart => (erase q).trans (if_neg apart)) (by simp [there])
      (Nat.le_refl _) (fun e left => by rw [gone] at left; cases left)
    exact ⟨erased, same, by simp [blocked, gone, there],
      beside_change fun q _ apart => (erase q).trans (if_neg apart)⟩

theorem Orderly.discard (orderly : Orderly h dir place w) (t : Trouble) (p : PageId) :
    Kept h dir place p w (w.perform t (discardSteps (PageStore.fileIn dir p))).2 := by
  have temporary : temporaryPath (PageStore.fileIn dir p) = dir.child (Slot.gathering p).name :=
    temporaryPath_child dir _
  unfold discardSteps perform
  rw [temporary]
  split
  · exact .refl orderly p
  · dsimp only
    split
    · exact .refl orderly p
    · next removed => exact orderly.remove removed

theorem perform_append (t : Trouble) (a b : List FileStep) (v : Volume) :
    v.perform t (a ++ b) = match v.perform t a with
      | (.ok _, w) => w.perform t b
      | (.error cause, w) => (.error cause, w) := by
  induction a generalizing v with
  | nil => rfl
  | cons step rest ih =>
    obtain ⟨call, act⟩ := step
    rw [List.cons_append, perform, perform]
    split
    · rfl
    · split
      · rfl
      · exact ih _

/-- What is in the way of a call, apart from the environment. -/
def inTheWay (blocked : Slot → Bool) (p : PageId) : FileCall → Option IoFault
  | .create => if blocked (.gathering p) then some .isDirectory else none
  | .rename => if blocked (.page p) then some .isDirectory else none
  | _ => none

/-- Why the first of these calls that is refused is refused. -/
def refusal (t : Trouble) (obstacle : FileCall → Option IoFault) (calls : List FileCall) :
    Option IoFault :=
  calls.findSome? fun call => (t call).or (obstacle call)

def outcomeOf : Option IoFault → Except IoFault Unit
  | none => .ok ()
  | some cause => .error cause

def gatherCalls (bytes : Bytes) (durable : Bool) : List FileCall :=
  (List.range (chunks chunkSize bytes).length).map .append ++ if durable then [.sync] else []

/-- The calls up to the rename, in order. -/
def installCalls (bytes : Bytes) (durable : Bool) : List FileCall :=
  .create :: gatherCalls bytes durable ++ [.rename]

def settleCalls (durable : Bool) : List FileCall := if durable then [.syncDirectory] else []

variable {t : Trouble} {bytes : Bytes} {durable : Bool}

theorem refusal_cons (obstacle : FileCall → Option IoFault) (call : FileCall) (rest : List FileCall) :
    refusal t obstacle (call :: rest) = ((t call).or (obstacle call)).or (refusal t obstacle rest) := by
  rw [refusal, List.findSome?_cons]
  cases (t call).or (obstacle call) <;> rfl

theorem refusal_append (obstacle : FileCall → Option IoFault) (a b : List FileCall) :
    refusal t obstacle (a ++ b) = (refusal t obstacle a).or (refusal t obstacle b) :=
  List.findSome?_append

theorem refusal_installCalls (obstacle : FileCall → Option IoFault) :
    refusal t obstacle (installCalls bytes durable) = ((t .create).or (obstacle .create)).or
      ((refusal t obstacle (gatherCalls bytes durable)).or ((t .rename).or (obstacle .rename))) := by
  rw [installCalls, List.cons_append, refusal_cons, refusal_append, refusal_cons]
  simp [refusal]

/-- Piece by piece, the bytes gather until a call is refused. -/
theorem Gathers.appends {obstacle : FileCall → Option IoFault} (call : Nat → FileCall)
    (free : ∀ n, obstacle (call n) = none) (pieces : List Bytes)
    (gathers : Gathers h dir place p v written w) :
    ∃ gathered after,
      w.perform t (pieces.mapIdx fun index piece =>
        (call index, appendAt (dir.child (Slot.gathering p).name) piece)) =
        (outcomeOf (refusal t obstacle ((List.range pieces.length).map call)), after) ∧
      Gathers h dir place p v gathered after ∧
      (refusal t obstacle ((List.range pieces.length).map call) = none →
        gathered = written ++ pieces.flatten) := by
  induction pieces generalizing call written w with
  | nil => exact ⟨written, w, rfl, gathers, by simp⟩
  | cons piece rest ih =>
    rw [List.mapIdx_cons, List.length_cons, List.range_succ_eq_map, List.map_cons, List.map_map]
    simp only [refusal, List.findSome?_cons, free, Option.or_none, perform]
    rcases t (call 0) with _ | cause
    · obtain ⟨next, appended, grown⟩ := gathers.append piece
      obtain ⟨gathered, after, done, last, whole⟩ :=
        ih (fun n => call (n + 1)) (fun n => free (n + 1)) grown
      refine ⟨gathered, after, ?_, last, fun none => ?_⟩
      · simp only [appended]
        exact done
      · rw [whole none, List.flatten_cons, List.append_assoc]
    · exact ⟨written, w, rfl, gathers, by simp⟩

/-- The calls in which the new bytes of a page gather. -/
def gatherSteps (dir : Path) (p : PageId) (bytes : Bytes) (durable : Bool) : List FileStep :=
  ((chunks chunkSize bytes).mapIdx fun index piece =>
    (.append index, appendAt (dir.child (Slot.gathering p).name) piece)) ++
    if durable then [(.sync, syncAt (dir.child (Slot.gathering p).name))] else []

theorem Gathers.gather (gathers : Gathers h dir place p v [] w) (t : Trouble) (bytes : Bytes)
    (durable : Bool) (obstacle : FileCall → Option IoFault) (free : ∀ n, obstacle (.append n) = none)
    (freeSync : obstacle .sync = none) :
    ∃ gathered after,
      w.perform t (gatherSteps dir p bytes durable) =
        (outcomeOf (refusal t obstacle (gatherCalls bytes durable)), after) ∧
      Gathers h dir place p v gathered after ∧
      (refusal t obstacle (gatherCalls bytes durable) = none → gathered = bytes) := by
  obtain ⟨gathered, after, done, last, whole⟩ :=
    gathers.appends (t := t) FileCall.append free (chunks chunkSize bytes)
  rw [flatten_chunks (by decide), List.nil_append] at whole
  refine ⟨gathered, after, ?_, last, fun none => whole ?_⟩
  · rw [gatherSteps, perform_append, done, gatherCalls, refusal_append]
    rcases refusal t obstacle ((List.range (chunks chunkSize bytes).length).map .append) with _ | cause
    · cases durable with
      | false => rfl
      | true =>
        simp only [outcomeOf, perform, if_true, last.sync, refusal, List.findSome?_cons, freeSync]
        rcases t .sync with _ | cause <;> rfl
    · rfl
  · rw [gatherCalls, refusal_append] at none
    exact (Option.or_eq_none_iff.mp none).1

theorem Orderly.create_refused (orderly : Orderly h dir place v)
    (blocked : v.slot? place (.gathering p) = some .directory) :
    v.openTruncate (dir.child (Slot.gathering p).name : Path) = .error .isDirectory := by
  have present : v.entry? (place.child (Slot.gathering p).name) = some .directory := blocked
  unfold openTruncate openWrite
  rw [orderly.reach]
  simp only [bind, Except.bind, present]

theorem installSteps_page (dir : Path) (p : PageId) (bytes : Bytes) (durable : Bool) :
    installSteps (PageStore.fileIn dir p) bytes durable =
      [(.create, fun v => (v.openTruncate (dir.child (Slot.gathering p).name : Path)).map (·.2))] ++
      gatherSteps dir p bytes durable ++
      [(.rename, fun v => v.rename (dir.child (Slot.gathering p).name) (dir.child (Slot.page p).name))] := by
  have temporary : temporaryPath (PageStore.fileIn dir p) = dir.child (Slot.gathering p).name :=
    temporaryPath_child dir _
  simp only [installSteps, temporary]
  rfl

/-- Up to the rename, either the page's file is untouched or it holds the new bytes. -/
theorem Orderly.install (orderly : Orderly h dir place v) (t : Trouble) (p : PageId) (bytes : Bytes)
    (durable : Bool) :
    ∃ after, v.perform t (installSteps (PageStore.fileIn dir p) bytes durable) =
        (outcomeOf (refusal t (inTheWay (v.blocked place) p) (installCalls bytes durable)), after) ∧
      match refusal t (inTheWay (v.blocked place) p) (installCalls bytes durable) with
      | none => Installed h dir place p v bytes after
      | some _ => Kept h dir place p v after := by
  rw [installSteps_page, refusal_installCalls, perform_append, perform_append]
  simp only [perform]
  rcases t .create with _ | cause
  · by_cases blocked : v.slot? place (.gathering p) = some .directory
    · have refused := orderly.create_refused blocked
      have inTheWay : inTheWay (v.blocked place) p .create = some .isDirectory := by
        simp [Volume.inTheWay, Volume.blocked, blocked]
      simp only [refused, inTheWay, Except.map]
      exact ⟨v, rfl, .refl orderly p⟩
    · obtain ⟨opened, created, gathers⟩ := orderly.create p blocked
      obtain ⟨gathered, after, done, gathers, whole⟩ := gathers.gather t bytes durable
        (inTheWay (v.blocked place) p) (fun _ => rfl) rfl
      have free : inTheWay (v.blocked place) p .create = none := by
        simp [Volume.inTheWay, Volume.blocked, blocked]
      simp only [created, Except.map, free, Option.or_none, Option.none_or, done]
      rcases found : refusal t (inTheWay (v.blocked place) p) (gatherCalls bytes durable) with _ | cause
      · rcases t .rename with _ | cause
        · cases whole found
          rcases gathers.rename with ⟨refused, blocked⟩ | ⟨free, installed, renamed, whole⟩
          · have inTheWay : inTheWay (v.blocked place) p .rename = some .isDirectory := by
              simp [Volume.inTheWay, Volume.blocked, blocked]
            simp only [outcomeOf, refused, inTheWay, Option.or_some]
            exact ⟨after, rfl, gathers.kept⟩
          · have free : inTheWay (v.blocked place) p .rename = none := by
              simp [Volume.inTheWay, Volume.blocked, free]
            simp only [outcomeOf, renamed, free, Option.or_none]
            exact ⟨installed, rfl, whole⟩
        · exact ⟨after, rfl, gathers.kept⟩
      · exact ⟨after, rfl, gathers.kept⟩
  · exact ⟨v, rfl, .refl orderly p⟩

theorem Orderly.settle (orderly : Orderly h dir place v) (t : Trouble) (p : PageId) (durable : Bool)
    (obstacle : FileCall → Option IoFault) (free : obstacle .syncDirectory = none) :
    v.perform t (settleSteps (PageStore.fileIn dir p) durable) =
      (outcomeOf (refusal t obstacle (settleCalls durable)), v) := by
  have parent : (PageStore.fileIn dir p).parent = dir := List.dropLast_concat
  have settled : v.syncDirectory dir = .ok () := by
    unfold syncDirectory
    rw [orderly.leads.follow]
    simp only [bind, Except.bind, orderly.leads.directory]
  cases durable with
  | false => rfl
  | true =>
    simp only [settleSteps, settleCalls, parent, if_true, perform, settled, refusal,
      List.findSome?_cons, free, Except.map, Option.or_none]
    rcases t .syncDirectory with _ | cause <;> rfl

/-- A replacement by bytes, from `v` to `w`. -/
structure Replaced (h : Handle) (dir place : Path) (p : PageId) (v : Volume) (bytes : Bytes)
    (installed : Bool) (w : Volume) : Prop where
  orderly : Orderly h dir place w
  blocked : ∀ x, w.blocked place x = v.blocked place x
  others : ∀ q, q ≠ p → w.slot? place (.page q) = v.slot? place (.page q)
  here : if installed then ∃ i, w.slot? place (.page p) = some (.file i bytes.reverse)
    else w.slot? place (.page p) = v.slot? place (.page p)
  gone : installed = true → w.slot? place (.gathering p) = none
  beside : Beside place p v w

/-- Replacing a page's file takes effect if no call up to the rename is refused, and it goes through if
none is. -/
theorem Orderly.replace (orderly : Orderly h dir place v) (t : Trouble) (p : PageId) (bytes : Bytes)
    (durable : Bool) :
    (v.replace t (PageStore.fileIn dir p) bytes durable).1 =
        outcomeOf (refusal t (inTheWay (v.blocked place) p)
          (installCalls bytes durable ++ settleCalls durable)) ∧
      Replaced h dir place p v bytes
        (refusal t (inTheWay (v.blocked place) p) (installCalls bytes durable)).isNone
        (v.replace t (PageStore.fileIn dir p) bytes durable).2 := by
  obtain ⟨after, done, result⟩ := orderly.install t p bytes durable
  rw [refusal_append, Volume.replace, done]
  rcases refused : refusal t (inTheWay (v.blocked place) p) (installCalls bytes durable) with _ | cause
  · rw [refused] at result
    simp only [outcomeOf, Option.none_or]
    rw [result.orderly.settle t p durable (inTheWay (v.blocked place) p) rfl]
    refine ⟨rfl, result.orderly, fun x => ?_, fun q other => ?_, result.page, fun _ => result.gone,
      result.beside⟩
    · obtain ⟨i, here⟩ := result.page
      by_cases page : x = .page p
      · simp [blocked, page, here, result.free.1]
      · by_cases gathering : x = .gathering p
        · simp [blocked, gathering, result.gone, result.free.2]
        · rw [blocked, blocked, result.same x page gathering]
    · exact result.same _ (fun same => other (Slot.page.inj same)) nofun
  · rw [refused] at result
    dsimp only [outcomeOf, Option.some_or]
    have kept := result.trans (result.orderly.discard t p)
    refine ⟨rfl, kept.orderly, fun x => ?_, fun q _ => kept.same _ nofun, kept.same _ nofun, nofun,
      kept.beside⟩
    by_cases here : x = .gathering p
    · rw [here, kept.blocked]
    · rw [blocked, blocked, kept.same x here]

end Volume

end PageJournal
