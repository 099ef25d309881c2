import PageJournal.Proofs.Volume.Entries
import PageJournal.Proofs.Volume.Walk
import PageJournal.Volume.Listing

/-! Directories that a way leads to: making them, what is found in them, and the names that they list. -/
namespace PageJournal.Volume

theorem LeadsTo.find?_child {v : Volume} {way place : Path} (leads : v.LeadsTo way place)
    {name : String} (proper : IsName name) (short : name.utf8ByteSize ≤ Route.maxName)
    (noLink : ∀ link, v.entry? (place.child name) ≠ some (.link link)) :
    v.find? (way.child name : Path) = v.entry? (place.child name) := by
  have reached := leads.reach_child proper short noLink .content
  unfold find? Volume.follow
  rw [reached]

/-- A file in a directory is seen as one if its name is no longer than names may be. -/
theorem LeadsTo.isFile_child {v : Volume} {way place : Path} (leads : v.LeadsTo way place)
    {name : String} (proper : IsName name)
    (noLink : ∀ link, v.entry? (place.child name) ≠ some (.link link)) :
    v.isFile (way.child name : Path) = true ↔ name.utf8ByteSize ≤ Route.maxName ∧
      ∃ i reversed, v.entry? (place.child name) = some (.file i reversed) := by
  unfold isFile
  rcases Nat.lt_or_ge Route.maxName name.utf8ByteSize with long | short
  · have lost : v.find? (way.child name : Path) = none := by
      unfold find? Volume.follow
      rw [leads.reach_long proper long]
    rw [lost]
    exact ⟨nofun, fun ⟨short, _⟩ => absurd long (Nat.not_lt.mpr short)⟩
  · rw [leads.find?_child proper short noLink]
    split
    · next i reversed there => exact ⟨fun _ => ⟨short, i, reversed, there⟩, fun _ => rfl⟩
    · next other => exact ⟨nofun, fun ⟨_, i, reversed, there⟩ => absurd there (other i reversed)⟩

theorem foldlM_fixed {f : Volume → Nat → Except IoFault Volume} {v : Volume} {xs : List Nat}
    (fixed : ∀ x ∈ xs, f v x = .ok v) : xs.foldlM f v = .ok v := by
  induction xs with
  | nil => rfl
  | cons x rest ih =>
    rw [List.foldlM_cons, fixed x List.mem_cons_self]
    exact ih fun y mem => fixed y (List.mem_cons_of_mem x mem)

theorem LeadsTo.find?_take {v : Volume} {way place : Path} (leads : v.LeadsTo way place) (n : Nat) :
    v.find? (way.take n : Path) = some .directory := by
  rw [← List.take_append_drop n way] at leads
  obtain ⟨middle, front⟩ := leads.front
  unfold find?
  rw [front.follow]
  exact front.directory

theorem LeadsTo.createDirectories_self {v : Volume} {way place : Path} (leads : v.LeadsTo way place) :
    v.createDirectories way = .ok v :=
  foldlM_fixed fun n _ => by simp only [leads.find?_take]

/-- Only the last name on a way to a directory can be missing. -/
theorem LeadsTo.createDirectories {v : Volume} {way place : Path} (leads : v.LeadsTo way place)
    {name : String} (proper : IsName name) (short : name.utf8ByteSize ≤ Route.maxName)
    (noLink : ∀ link, v.entry? (place.child name) ≠ some (.link link)) :
    v.createDirectories (way.child name) = match v.entry? (place.child name) with
      | none => .ok (v.put (place.child name) .directory)
      | some .directory => .ok v
      | some _ => .error .alreadyExists := by
  have length : (way.child name).length = way.length + 1 := by simp [Path.child]
  unfold Volume.createDirectories
  rw [length, List.range_succ, List.foldlM_append, foldlM_fixed]
  · have whole : (way.child name).take (way.length + 1) = way.child name :=
      List.take_of_length_le (Nat.le_of_eq length)
    have located := leads.reach_child proper short noLink .entry
    have found := leads.find?_child proper short noLink
    simp only [bind, Except.bind, List.foldlM_cons, List.foldlM_nil, whole, found]
    rcases there : v.entry? (place.child name) with _ | (_ | _ | _ | _)
    · unfold createDirectory locate
      rw [located]
      simp only [bind, Except.bind, there]
      rfl
    all_goals rfl
  · intro n mem
    have inside : n + 1 ≤ way.length := List.mem_range.mp mem
    have part : (way.child name).take (n + 1) = way.take (n + 1) :=
      List.take_append_of_le_length inside
    rw [part]
    simp only [leads.find?_take]

theorem mem_insertName {a b : String} {names : List String} :
    a ∈ insertName b names ↔ a = b ∨ a ∈ names := by
  induction names with
  | nil => simp [insertName]
  | cons c rest ih =>
    rw [insertName]
    split
    · rw [List.mem_cons]
    · rw [List.mem_cons, List.mem_cons, ih]
      exact or_left_comm

theorem mem_ascending {a : String} {names : List String} : a ∈ ascending names ↔ a ∈ names := by
  induction names with
  | nil => rfl
  | cons b rest ih => rw [ascending, List.foldr_cons, mem_insertName, List.mem_cons, ← ih, ascending]

/-- What stands in a directory is listed. -/
theorem LeadsTo.mem_names {v : Volume} {way place : Path} (leads : v.LeadsTo way place)
    {names : List String} (listed : v.names way = .ok names) {name : String} {e : Entry}
    (there : v.entry? (place.child name) = some e) : name ∈ names := by
  unfold Volume.names at listed
  rw [leads.follow] at listed
  simp only [bind, Except.bind, leads.directory] at listed
  cases listed
  rw [entry?_of_ne_nil v (child_ne_nil place name), List.lookup_eq_some_iff] at there
  obtain ⟨front, rest, entries, -⟩ := there
  have child : (name, e) ∈ v.children place := by
    rw [children, entries]
    refine List.mem_filterMap.mpr ⟨(place.child name, e), by simp, ?_⟩
    simp [Path.child]
  exact mem_ascending.mpr (List.mem_map_of_mem child)

/-- Appending to a file changes no way. -/
theorem LeadsTo.append {v w : Volume} {way place : Path} (leads : v.LeadsTo way place) {h : Handle}
    {bytes : Bytes} (appended : v.append h bytes = .ok w) : w.LeadsTo way place := by
  cases h with
  | device d => exact append_device appended ▸ leads
  | file k =>
    have entries := entry?_append appended
    exact leads.keep (fun p there => by rw [entries, there]; rfl)
      (fun p link there => by rw [entries, there]; rfl)

end PageJournal.Volume
