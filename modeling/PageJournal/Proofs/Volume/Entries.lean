import PageJournal.Volume.Calls

/-! What stands where after the volume's own operations. -/
namespace PageJournal

/-- What an entry is, apart from the bytes of a file. -/
def Entry.shape : Entry → Entry
  | .file identity _ => .file identity []
  | .directory => .directory
  | .link target => .link target
  | .device d => .device d

theorem Entry.shape_extended (k : Nat) (bytes : Bytes) (e : Entry) :
    (e.extended k bytes).shape = e.shape := by
  cases e with
  | file own reversed =>
    rw [extended]
    split <;> rfl
  | directory | link | device => rfl

theorem Entry.extended_nil (k : Nat) (e : Entry) : e.extended k [] = e := by
  cases e with
  | file own reversed => simp [extended]
  | directory | link | device => rfl

theorem Entry.extended_extended (k : Nat) (a b : Bytes) (e : Entry) :
    (e.extended k a).extended k b = e.extended k (a ++ b) := by
  cases e with
  | file own reversed =>
    by_cases same : own = k
    · simp [extended, same]
    · simp [extended, same]
  | directory | link | device => rfl

namespace Volume

theorem lookup_filter_ne {entries : List (Path × Entry)} {p q : Path} (other : q ≠ p) :
    (entries.filter fun x => x.1 != p).lookup q = entries.lookup q := by
  induction entries with
  | nil => rfl
  | cons x rest ih =>
    obtain ⟨key, e⟩ := x
    by_cases dropped : key = p
    · have skipped : (q == key) = false := by simp [dropped, other]
      rw [List.filter_cons_of_neg (by simp [dropped]), ih, List.lookup_cons, skipped]
    · by_cases found : q = key
      · simp [dropped, found]
      · have skipped : (q == key) = false := by simp [found]
        simp [dropped, ih, List.lookup_cons, skipped]

theorem lookup_filter_self {entries : List (Path × Entry)} {p : Path} :
    (entries.filter fun x => x.1 != p).lookup p = none := by
  induction entries with
  | nil => rfl
  | cons x rest ih =>
    obtain ⟨key, e⟩ := x
    by_cases dropped : key = p
    · simp [dropped, ih]
    · have skipped : (p == key) = false := by simp [Ne.symm dropped]
      simp [dropped, ih, List.lookup_cons, skipped]

theorem child_ne_nil (place : Path) (name : String) : place.child name ≠ [] :=
  List.append_ne_nil_of_right_ne_nil _ (List.cons_ne_nil _ _)

theorem entry?_of_ne_nil (v : Volume) {p : Path} (named : p ≠ []) :
    v.entry? p = v.entries.lookup p := by
  cases p with
  | nil => exact absurd rfl named
  | cons name rest => rfl

theorem entry?_put {v : Volume} {p : Path} (named : p ≠ []) (e : Entry) (q : Path) :
    entry? (v.put p e) q = if q = p then some e else v.entry? q := by
  cases q with
  | nil => rw [if_neg (Ne.symm named)]; rfl
  | cons name rest =>
    rw [entry?_of_ne_nil _ (List.cons_ne_nil _ _), entry?_of_ne_nil _ (List.cons_ne_nil _ _), put,
      List.lookup_cons]
    split
    · next same => rw [if_pos (eq_of_beq same)]
    · next other =>
      have other : name :: rest ≠ p := by simpa using other
      rw [if_neg other, lookup_filter_ne other]

theorem entry?_put_self {v : Volume} {p : Path} (named : p ≠ []) (e : Entry) :
    entry? (v.put p e) p = some e := (entry?_put named e p).trans (if_pos rfl)

theorem entry?_addFile (v : Volume) {p : Path} (named : p ≠ []) (q : Path) :
    entry? (v.addFile p).2 q = if q = p then some (.file v.nextIdentity []) else v.entry? q := by
  have same : entry? (v.addFile p).2 q = entry? (v.put p (.file v.nextIdentity [])) q := by
    cases q <;> rfl
  exact same.trans (entry?_put named _ q)

theorem entry?_erase {v : Volume} {p : Path} (named : p ≠ []) (q : Path) :
    entry? (v.erase p) q = if q = p then none else v.entry? q := by
  cases q with
  | nil => rw [if_neg (Ne.symm named)]; rfl
  | cons name rest =>
    rw [entry?_of_ne_nil _ (List.cons_ne_nil _ _), entry?_of_ne_nil _ (List.cons_ne_nil _ _), erase]
    split
    · next same => rw [same]; exact lookup_filter_self
    · next other => exact lookup_filter_ne other

theorem entry?_append {v w : Volume} {k : Nat} {bytes : Bytes}
    (appended : v.append (.file k) bytes = .ok w) (q : Path) :
    w.entry? q = (v.entry? q).map (Entry.extended k bytes) := by
  cases appended
  cases q with
  | nil => rfl
  | cons name rest =>
    rw [entry?_of_ne_nil _ (List.cons_ne_nil _ _), entry?_of_ne_nil _ (List.cons_ne_nil _ _)]
    dsimp only
    induction v.entries with
    | nil => rfl
    | cons x more ih =>
      rw [List.map_cons, List.lookup_cons, List.lookup_cons]
      split
      · rfl
      · exact ih

theorem entry?_append_self {v w : Volume} {p : Path} {k : Nat} {bytes reversed : Bytes}
    (there : v.entry? p = some (.file k reversed)) (appended : v.append (.file k) bytes = .ok w) :
    w.entry? p = some (.file k (bytes.reverse ++ reversed)) := by
  rw [entry?_append appended, there]
  simp [Entry.extended]

theorem append_nil (v : Volume) (k : Nat) : v.append (.file k) [] = .ok v := by
  simp [append, Entry.extended_nil]

/-- Two appends to a file are one. -/
theorem append_append {v u : Volume} {k : Nat} {a : Bytes}
    (first : v.append (.file k) a = .ok u) (b : Bytes) :
    u.append (.file k) b = v.append (.file k) (a ++ b) := by
  cases first
  simp [append, Function.comp_def, Entry.extended_extended]

theorem append_device {v w : Volume} {d : Device} {bytes : Bytes}
    (appended : v.append (.device d) bytes = .ok w) : w = v := by
  cases d with
  | null =>
    cases appended
    rfl
  | full =>
    rw [append] at appended
    split at appended
    · cases appended
      rfl
    · cases appended

theorem nextIdentity_append {v w : Volume} {h : Handle} {bytes : Bytes}
    (appended : v.append h bytes = .ok w) : w.nextIdentity = v.nextIdentity := by
  cases h with
  | file k =>
    cases appended
    rfl
  | device d => rw [append_device appended]

end Volume

end PageJournal
