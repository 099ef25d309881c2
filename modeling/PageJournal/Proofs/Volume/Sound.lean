import PageJournal.Proofs.Outcome
import PageJournal.Proofs.Volume.Entries

/-! Volumes in which every file has an identity of its own. All calls keep them so, and what is appended to
one file changes no other. -/
namespace PageJournal

/-- The identity of a regular file. -/
def Entry.identity? : Entry → Option Nat
  | .file identity _ => some identity
  | .directory | .link _ | .device _ => none

namespace Volume

def identities (v : Volume) : List Nat := v.entries.filterMap (·.2.identity?)

/-- No two files share an identity, and the next new file gets another one. -/
structure Sound (v : Volume) : Prop where
  apart : v.identities.Nodup
  below : ∀ i ∈ v.identities, i < v.nextIdentity

variable {v w : Volume} {p q : Path} {e : Entry} {i : Nat}

theorem ne_nil_of_entry? (there : v.entry? p = some e) (other : e ≠ .directory) : p ≠ [] := by
  rintro rfl
  exact other (Option.some.inj there).symm

theorem mem_identities (there : v.entry? p = some e) (own : e.identity? = some i) :
    i ∈ v.identities := by
  have named : p ≠ [] := ne_nil_of_entry? there (by rintro rfl; cases own)
  rw [entry?_of_ne_nil v named, List.lookup_eq_some_iff] at there
  obtain ⟨front, rest, entries, -⟩ := there
  simp [identities, entries, own]

theorem identities_put (v : Volume) (p : Path) (e : Entry) :
    (v.put p e).identities = e.identity?.toList ++ (v.erase p).identities := by
  cases own : e.identity? <;> simp [identities, put, erase, own]

theorem identities_erase_sublist (v : Volume) (p : Path) :
    (v.erase p).identities.Sublist v.identities :=
  List.filter_sublist.filterMap _

theorem Sound.erase (sound : v.Sound) (p : Path) : Sound (v.erase p) where
  apart := sound.apart.sublist (identities_erase_sublist v p)
  below i mem := sound.below i ((identities_erase_sublist v p).subset mem)

theorem Sound.put (sound : v.Sound)
    (new : ∀ i, e.identity? = some i → i < v.nextIdentity ∧ i ∉ (v.erase p).identities) :
    Sound (v.put p e) := by
  have rest := sound.erase p
  cases own : e.identity? with
  | none =>
    have same : (v.put p e).identities = (v.erase p).identities := by simp [identities_put, own]
    exact ⟨same ▸ rest.apart, same ▸ rest.below⟩
  | some i =>
    obtain ⟨low, fresh⟩ := new i own
    have more : (v.put p e).identities = i :: (v.erase p).identities := by simp [identities_put, own]
    refine ⟨?_, ?_⟩
    · rw [more]
      exact List.nodup_cons.mpr ⟨fresh, rest.apart⟩
    · rw [more]
      exact List.forall_mem_cons.mpr ⟨low, rest.below⟩

/-- A file that is taken away leaves no other with its identity. -/
theorem Sound.not_mem_erase (sound : v.Sound) (there : v.entry? p = some e) (own : e.identity? = some i) :
    i ∉ (v.erase p).identities := by
  have named : p ≠ [] := ne_nil_of_entry? there (by rintro rfl; cases own)
  rw [entry?_of_ne_nil v named, List.lookup_eq_some_iff] at there
  obtain ⟨front, rest, entries, -⟩ := there
  have distinct := sound.apart
  simp only [identities, entries, List.filterMap_append, List.filterMap_cons, own] at distinct
  have erased : (v.erase p).identities.Sublist
      (front.filterMap (·.2.identity?) ++ rest.filterMap (·.2.identity?)) := by
    have kept : (v.erase p).entries = front.filter (·.1 != p) ++ rest.filter (·.1 != p) := by
      simp [Volume.erase, entries]
    rw [identities, kept, List.filterMap_append]
    exact (List.filter_sublist.filterMap _).append (List.filter_sublist.filterMap _)
  intro mem
  have mem := erased.subset mem
  grind

theorem Sound.eq_of_identity (sound : v.Sound) {a b : Bytes} (first : v.entry? p = some (.file i a))
    (second : v.entry? q = some (.file i b)) : p = q := by
  refine Decidable.byContradiction fun other => ?_
  have named : p ≠ [] := ne_nil_of_entry? first nofun
  have left : entry? (v.erase p) q = some (.file i b) := by
    rw [entry?_erase named, if_neg (Ne.symm other), second]
  exact sound.not_mem_erase first rfl (mem_identities left rfl)

theorem Sound.append (sound : v.Sound) {h : Handle} {bytes : Bytes} (appended : v.append h bytes = .ok w) :
    w.Sound := by
  cases h with
  | device d => exact append_device appended ▸ sound
  | file k =>
    cases appended
    have same : ∀ e : Entry, (e.extended k bytes).identity? = e.identity? := by
      intro e
      cases e with
      | file own reversed =>
        rw [Entry.extended]
        split <;> rfl
      | directory | link | device => rfl
    have identities : v.identities = identities
        { v with entries := v.entries.map fun x => (x.1, x.2.extended k bytes) } := by
      simp only [Volume.identities, List.filterMap_map]
      congr 1
      funext x
      exact (same x.2).symm
    exact ⟨identities ▸ sound.apart, identities ▸ sound.below⟩

/-- What is appended to a file is put nowhere else. -/
theorem Sound.append_other (sound : v.Sound) {bytes reversed : Bytes}
    (there : v.entry? p = some (.file i reversed)) (appended : v.append (.file i) bytes = .ok w)
    (other : q ≠ p) : w.entry? q = v.entry? q := by
  rw [entry?_append appended]
  rcases found : v.entry? q with _ | e
  · rfl
  · cases e with
    | file own bytes =>
      have apart : own ≠ i := by
        rintro rfl
        exact other (sound.eq_of_identity found there)
      simp [Entry.extended, apart]
    | directory | link | device => rfl

theorem Sound.addFile (sound : v.Sound) (p : Path) : (v.addFile p).2.Sound := by
  have ids : (v.addFile p).2.identities = v.nextIdentity :: (v.erase p).identities := by
    simp [Volume.addFile, identities, Volume.put, Volume.erase, Entry.identity?]
  have rest := sound.erase p
  refine ⟨?_, ?_⟩
  · rw [ids]
    exact List.nodup_cons.mpr ⟨fun mem => Nat.lt_irrefl _ (rest.below _ mem), rest.apart⟩
  · rw [ids]
    exact List.forall_mem_cons.mpr ⟨Nat.lt_succ_self _, fun i mem => Nat.lt_succ_of_lt (rest.below i mem)⟩

theorem Sound.putFile (sound : v.Sound) {reversed bytes : Bytes}
    (there : v.entry? p = some (.file i reversed)) : Sound (v.put p (.file i bytes)) := by
  refine sound.put fun own same => ?_
  cases same
  exact ⟨sound.below i (mem_identities there rfl), sound.not_mem_erase there rfl⟩

theorem Sound.openWrite (sound : v.Sound) {truncate : Bool} {r : Route} {h : Handle}
    (opened : v.openWrite truncate r = .ok (h, w)) : w.Sound := by
  obtain ⟨place, -, opened⟩ := bind_eq_ok.mp opened
  split at opened
  · cases opened
    exact sound.addFile place
  · next there =>
    cases opened
    split
    · exact sound.putFile there
    · exact sound
  · cases opened
  · cases opened
  · cases opened
    exact sound

theorem Sound.removeFile (sound : v.Sound) {r : Route} (removed : v.removeFile r = .ok w) : w.Sound := by
  obtain ⟨place, -, removed⟩ := bind_eq_ok.mp removed
  split at removed
  · cases removed
  · cases removed
  · split at removed
    · cases removed
    · cases removed
      exact sound.erase place

theorem Sound.rename (sound : v.Sound) {old new : Path} (renamed : v.rename old new = .ok w) : w.Sound := by
  obtain ⟨source, -, renamed⟩ := bind_eq_ok.mp renamed
  obtain ⟨target, -, renamed⟩ := bind_eq_ok.mp renamed
  split at renamed
  · cases renamed
  · cases renamed
  · next e _ there =>
    split at renamed
    · cases renamed
    · cases renamed
      refine (sound.erase source).put fun i own => ⟨sound.below i (mem_identities there own), fun mem => ?_⟩
      exact sound.not_mem_erase there own ((identities_erase_sublist _ target).subset mem)

theorem Sound.createDirectory (sound : v.Sound) {r : Route} (made : v.createDirectory r = .ok w) :
    w.Sound := by
  obtain ⟨place, -, made⟩ := bind_eq_ok.mp made
  split at made
  · cases made
    exact sound.put nofun
  · cases made

theorem foldlM_keeps {P : Volume → Prop} {f : Volume → Nat → Except IoFault Volume}
    (step : ∀ u x u', P u → f u x = .ok u' → P u') {xs : List Nat} (start : P v)
    (done : xs.foldlM f v = .ok w) : P w := by
  induction xs generalizing v with
  | nil =>
    cases done
    exact start
  | cons x rest ih =>
    rw [List.foldlM_cons] at done
    obtain ⟨u, first, later⟩ := bind_eq_ok.mp done
    exact ih (step v x u start first) later

/-- What a volume keeps when only directories come to it. -/
structure Grown (v w : Volume) : Prop where
  kept : ∀ q e, v.entry? q = some e → w.entry? q = some e
  new : ∀ q e, w.entry? q = some e → e ≠ .directory → v.entry? q = some e

theorem createDirectory_grown {r : Route} (made : v.createDirectory r = .ok w) : Grown v w := by
  obtain ⟨place, -, made⟩ := bind_eq_ok.mp made
  split at made
  · next free =>
    cases made
    have named : place ≠ [] := by
      rintro rfl
      cases free
    have put := entry?_put (v := v) named .directory
    refine ⟨fun q e there => ?_, fun q e there other => ?_⟩
    · rw [put, if_neg, there]
      rintro rfl
      cases free.symm.trans there
    · rw [put] at there
      split at there
      · exact absurd (Option.some.inj there).symm other
      · exact there
  · cases made

/-- Making directories keeps a volume sound and everything in its place. -/
theorem Sound.createDirectories (sound : v.Sound) {p : Path} (made : v.createDirectories p = .ok w) :
    w.Sound ∧ Grown v w := by
  refine foldlM_keeps (P := fun u => u.Sound ∧ Grown v u) (fun u n u' held step => ?_)
    ⟨sound, fun _ _ there => there, fun _ _ there _ => there⟩ made
  dsimp only at step
  generalize u.find? _ = found at step
  rcases found with _ | (_ | _ | _ | _)
  · have grown := createDirectory_grown step
    exact ⟨held.1.createDirectory step, fun q e there => grown.kept q e (held.2.kept q e there),
      fun q e there other => held.2.new q e (grown.new q e there other) other⟩
  · cases step
  · cases step
    exact held
  · cases step
  · cases step

end Volume

end PageJournal
