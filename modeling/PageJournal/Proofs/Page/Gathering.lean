import PageJournal.Proofs.Page.Atomic
import PageJournal.Proofs.Volume.Sound

/-! The file in which the new bytes of a page gather. Up to the rename the calls of a replacement touch nothing
else, so a write that fails leaves every page as it was. -/
namespace PageJournal

namespace Volume

/-- A name in a directory of a sound volume, and no link under it. -/
structure Spot (dir place : Path) (name : String) (v : Volume) : Prop where
  leads : v.LeadsTo dir place
  sound : v.Sound
  noLink : ∀ link, v.entry? (place.child name) ≠ some (.link link)

/-- Nothing differs but what stands under a name, which is a file if it is new. -/
structure Touched (place : Path) (name : String) (v w : Volume) : Prop where
  others : ∀ q, q ≠ place.child name → w.entry? q = v.entry? q
  here : ∀ e, w.entry? (place.child name) = some e →
    v.entry? (place.child name) = some e ∨ ∃ i reversed, e = .file i reversed

variable {dir place : Path} {name : String} {v w u : Volume} {p : PageId}

theorem Touched.refl (place : Path) (name : String) (v : Volume) : Touched place name v v :=
  ⟨fun _ _ => rfl, fun _ there => .inl there⟩

theorem Touched.trans (first : Touched place name v w) (later : Touched place name w u) :
    Touched place name v u where
  others q other := (later.others q other).trans (first.others q other)
  here e there := (later.here e there).elim (first.here e) .inr

/-- What is no directory can be touched. -/
theorem Spot.touched (spot : Spot dir place name v) (sound : w.Sound)
    (free : v.entry? (place.child name) ≠ some .directory) (touched : Touched place name v w) :
    Spot dir place name w ∧ Touched place name v w := by
  have kept : ∀ q e, v.entry? q = some e → e = .directory ∨ (∃ link, e = .link link) →
      w.entry? q = some e := by
    intro q e there kind
    rw [touched.others q, there]
    rintro rfl
    rcases kind with rfl | ⟨link, rfl⟩
    · exact free there
    · exact spot.noLink link there
  refine ⟨⟨spot.leads.keep (fun q there => kept q _ there (.inl rfl))
    fun q link there => kept q _ there (.inr ⟨link, rfl⟩), sound, fun link there => ?_⟩, touched⟩
  rcases touched.here _ there with before | ⟨i, reversed, same⟩
  · exact spot.noLink link before
  · cases same

/-- A call that touches one name only. -/
def Touches (dir place : Path) (name : String) (act : Volume → Except IoFault Volume) : Prop :=
  ∀ v w, Spot dir place name v → act v = .ok w → Spot dir place name w ∧ Touched place name v w

theorem Spot.perform {t : Trouble} {steps : List FileStep} (spot : Spot dir place name v)
    (touches : ∀ s ∈ steps, Touches dir place name s.2) :
    Spot dir place name (v.perform t steps).2 ∧ Touched place name v (v.perform t steps).2 :=
  perform_keeps (P := fun u => Spot dir place name u ∧ Touched place name v u)
    (fun s mem u w spot acted =>
      (touches s mem u w spot.1 acted).imp id spot.2.trans) ⟨spot, .refl place name v⟩

section Calls

variable (proper : IsName name)

include proper

theorem touches_create : Touches dir place name fun v =>
    (v.openTruncate (dir.child name : Path)).map (·.2) := by
  intro v w spot acted
  obtain ⟨⟨h, after⟩, opened, rfl⟩ := map_eq_ok.mp acted
  have sound := spot.sound.openWrite opened
  have named := child_ne_nil place name
  obtain ⟨found, reached, opened⟩ := bind_eq_ok.mp opened
  obtain rfl := spot.leads.reach_child_eq proper spot.noLink reached
  split at opened
  · next free =>
    cases opened
    have entries := entry?_addFile v named
    refine spot.touched sound (by simp [free]) ⟨fun q other => (entries q).trans (if_neg other), fun e there => ?_⟩
    have there := ((entries _).trans (if_pos rfl)).symm.trans there
    exact .inr ⟨_, _, (Option.some.inj there).symm⟩
  · next i reversed file =>
    cases opened
    have entries := entry?_put (v := v) named (.file i [])
    refine spot.touched sound (by simp [file]) ⟨fun q other => (entries q).trans (if_neg other), fun e there => ?_⟩
    have there := ((entries _).trans (if_pos rfl)).symm.trans there
    exact .inr ⟨_, _, (Option.some.inj there).symm⟩
  · cases opened
  · cases opened
  · cases opened
    exact ⟨spot, .refl place name _⟩

theorem touches_append (bytes : Bytes) : Touches dir place name (appendAt (dir.child name) bytes) := by
  intro v w spot acted
  obtain ⟨h, opened, appended⟩ := bind_eq_ok.mp acted
  obtain ⟨found, reached, opened⟩ := bind_eq_ok.mp opened
  obtain rfl := spot.leads.reach_child_eq proper spot.noLink reached
  split at opened
  · next i reversed there =>
    cases opened
    have others := fun q other => spot.sound.append_other there appended (q := q) other
    refine spot.touched (spot.sound.append appended) (by simp [there]) ⟨others, fun e now => ?_⟩
    rw [entry?_append_self there appended] at now
    exact .inr ⟨_, _, (Option.some.inj now).symm⟩
  · cases opened
    obtain rfl := append_device appended
    exact ⟨spot, .refl place name _⟩
  all_goals cases opened

omit proper in
theorem touches_sync (way : Path) : Touches dir place name (syncAt way) := by
  intro v w spot acted
  obtain ⟨h, -, acted⟩ := bind_eq_ok.mp acted
  obtain ⟨-, -, acted⟩ := bind_eq_ok.mp acted
  cases acted
  exact ⟨spot, .refl place name v⟩

theorem touches_remove : Touches dir place name fun v => v.removeFile (dir.child name : Path) := by
  intro v w spot acted
  have sound := spot.sound.removeFile acted
  obtain ⟨found, located, acted⟩ := bind_eq_ok.mp acted
  obtain rfl := spot.leads.reach_child_eq proper spot.noLink located
  have entries := entry?_erase (v := v) (child_ne_nil place name)
  split at acted
  · cases acted
  · cases acted
  · next e file present =>
    split at acted
    · cases acted
    · cases acted
      refine spot.touched sound (fun directory => file (Option.some.inj (present.symm.trans directory)))
        ⟨fun q other => (entries q).trans (if_neg other), fun e gone => ?_⟩
      rw [entries, if_pos rfl] at gone
      cases gone

end Calls

theorem touches_gather (bytes : Bytes) (durable : Bool) :
    ∀ s ∈ gatherSteps dir p bytes durable, Touches dir place (Slot.gathering p).name s.2 := by
  intro s mem
  rcases List.mem_append.mp mem with mem | mem
  · obtain ⟨i, -, rfl⟩ := List.mem_mapIdx.mp mem
    exact touches_append (Slot.gathering p).isName _
  · split at mem
    · rw [List.mem_singleton.mp mem]
      exact touches_sync _
    · cases mem

theorem touches_discard :
    ∀ s ∈ discardSteps (PageStore.fileIn dir p), Touches dir place (Slot.gathering p).name s.2 := by
  intro s mem
  have temporary : temporaryPath (PageStore.fileIn dir p) = dir.child (Slot.gathering p).name :=
    temporaryPath_child dir _
  rw [discardSteps, temporary] at mem
  rw [List.mem_singleton.mp mem]
  exact touches_remove (Slot.gathering p).isName

/-- A replacement that need not be durable is refused before the rename or at it. -/
theorem Spot.replace_error (spot : Spot dir place (Slot.gathering p).name v) {t : Trouble} {bytes : Bytes}
    {cause : IoFault} (failed : (v.replace t (PageStore.fileIn dir p) bytes false).1 = .error cause) :
    Spot dir place (Slot.gathering p).name (v.replace t (PageStore.fileIn dir p) bytes false).2 ∧
      Touched place (Slot.gathering p).name v (v.replace t (PageStore.fileIn dir p) bytes false).2 := by
  have gathers : ∀ s ∈ [(FileCall.create, fun v : Volume =>
      (v.openTruncate (dir.child (Slot.gathering p).name : Path)).map (·.2))] ++ gatherSteps dir p bytes false,
      Touches dir place (Slot.gathering p).name s.2 := by
    intro s mem
    rcases List.mem_cons.mp mem with rfl | mem
    · exact touches_create (Slot.gathering p).isName
    · exact touches_gather bytes false s mem
  obtain ⟨there, touched⟩ := spot.perform (t := t) gathers
  have discard : ∀ u : Volume, Spot dir place (Slot.gathering p).name u →
      Touched place (Slot.gathering p).name v u →
      Spot dir place (Slot.gathering p).name (u.perform t (discardSteps (PageStore.fileIn dir p))).2 ∧
        Touched place (Slot.gathering p).name v (u.perform t (discardSteps (PageStore.fileIn dir p))).2 :=
    fun u spot touched => (spot.perform touches_discard).imp id touched.trans
  rw [Volume.replace, installSteps_page, perform_append] at failed ⊢
  generalize v.perform t _ = gathered at there touched failed ⊢
  obtain ⟨_ | ⟨⟩, u⟩ := gathered
  · exact discard u there touched
  · rcases asked : t .rename with _ | refused
    · rcases renamed : u.rename (dir.child (Slot.gathering p).name) (dir.child (Slot.page p).name) with
        refused | w
      · simp only [Volume.perform, asked, renamed]
        exact discard u there touched
      · simp only [Volume.perform, asked, renamed] at failed
        cases failed
    · simp only [Volume.perform, asked]
      exact discard u there touched

/-- Where no directory is there is nothing to replace. -/
theorem replace_lost (lost : ∀ place, ¬ v.LeadsTo dir place) (t : Trouble) (p : PageId) (bytes : Bytes)
    (durable : Bool) : (v.replace t (PageStore.fileIn dir p) bytes durable).2 = v := by
  have unreached : ∀ purpose, ∃ cause, v.reach purpose (dir.child (Slot.gathering p).name : Path) = .error cause := by
    intro purpose
    rcases reached : v.reach purpose (dir.child (Slot.gathering p).name : Path) with cause | found
    · exact ⟨cause, rfl⟩
    · obtain ⟨place, leads⟩ := leadsTo_of_reach_child reached
      exact absurd leads (lost place)
  have refused : ∃ cause, v.perform t (installSteps (PageStore.fileIn dir p) bytes durable) = (.error cause, v) := by
    obtain ⟨cause, unreached⟩ := unreached .writing
    rw [installSteps_page, List.append_assoc, List.singleton_append, Volume.perform]
    split
    · exact ⟨_, rfl⟩
    · simp only [openTruncate, openWrite, unreached, bind, Except.bind, Except.map]
      exact ⟨_, rfl⟩
  obtain ⟨cause, refused⟩ := refused
  have temporary : temporaryPath (PageStore.fileIn dir p) = dir.child (Slot.gathering p).name :=
    temporaryPath_child dir _
  rw [Volume.replace, refused]
  dsimp only
  rw [discardSteps, temporary, Volume.perform]
  split
  · rfl
  · obtain ⟨cause, unreached⟩ := unreached .entry
    simp only [removeFile, locate, unreached, bind, Except.bind]

/-- A file of a page reads the same if the same stands in its place. -/
theorem LeadsTo.read_slot (leads : v.LeadsTo dir place) (unlinked : Unlinked place v)
    (leads' : w.LeadsTo dir place) {x : Slot}
    (same : w.entry? (place.child x.name) = v.entry? (place.child x.name)) :
    w.read (dir.child x.name : Path) = v.read (dir.child x.name : Path) := by
  have free : ∀ link, w.entry? (place.child x.name) ≠ some (.link link) := by
    intro link there
    exact unlinked x.name link (same ▸ there)
  have reached := leads.reach_child x.isName x.short (unlinked x.name) .content
  have reached' := leads'.reach_child x.isName x.short free .content
  simp only [Volume.read, openRead, Volume.follow, reached, reached', bind, Except.bind, same]

end Volume

namespace PageStore

open Volume

/-- Nothing about a store differs but what stands where the new bytes of a page gather. -/
structure Untouched (page : PageId) (s after : PageStore) : Prop where
  frame : after = { s with disk := after.disk }
  reads : ∀ q, after.disk.read (after.file q) = s.disk.read (s.file q)
  others : ∀ p, (∀ place, s.disk.LeadsTo s.dir place → p ≠ place.child (Slot.gathering page).name) →
    after.disk.entry? p = s.disk.entry? p

variable {s after : PageStore} {page : PageId}

theorem Untouched.refl (page : PageId) (s : PageStore) : Untouched page s s :=
  ⟨rfl, fun _ => rfl, fun _ _ => rfl⟩

/-- A write that fails leaves every page, the dirty pages, the cache and the counters as they were. -/
theorem untouched_of_write {payload : Bytes} {t : Trouble} {fault : Fault} (sound : s.disk.Sound)
    (unlinked : ∀ place, s.disk.LeadsTo s.dir place → Unlinked place s.disk)
    (failed : s.write page payload t = (.error fault, after)) : Untouched page s after := by
  rcases s.write_cases page payload t with ⟨_, refused⟩ | ⟨cause, replaced, left⟩ | ⟨-, done⟩
  · cases refused.symm.trans failed
    exact .refl page s
  · cases left.symm.trans failed
    by_cases leads : ∃ place, s.disk.LeadsTo s.dir place
    · obtain ⟨place, leads⟩ := leads
      have unlinked := unlinked place leads
      have spot : Spot s.dir place (Slot.gathering page).name s.disk := ⟨leads, sound, unlinked _⟩
      obtain ⟨there, touched⟩ := spot.replace_error replaced
      refine ⟨rfl, fun q => ?_, fun p other => touched.others p (other place leads)⟩
      refine leads.read_slot unlinked there.leads (x := .page q) (touched.others _ fun same => ?_)
      cases child_slot_inj same
    · have same : (s.disk.replace t (s.file page) (padded s.pageSize payload) false).2 = s.disk :=
        replace_lost (fun place leadsTo => leads ⟨place, leadsTo⟩) t page _ false
      rw [same]
      exact .refl page s
  · cases done.symm.trans failed

end PageStore

end PageJournal
