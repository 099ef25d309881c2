import PageJournal.Volume.Walk

/-! Ways that lead to directories. Such a way meets nothing but directories and links, so it stays as
long as those stay, and a way that goes on behind it starts where it ends. -/
namespace PageJournal.Volume

/-- A name of its own: it neither stays nor leads back. -/
def IsName (name : String) : Prop := name ≠ "." ∧ name ≠ ".."

/-- From a place, with so many links to spare, the names lead through directories to a place, and
so many links are left. -/
inductive Leads (v : Volume) : Nat → Path → Path → Nat → Path → Prop where
  | here (n : Nat) (place : Path) : Leads v n place [] n place
  | stay {n m : Nat} {place rest target : Path} (on : Leads v n place rest m target) :
    Leads v n place ("." :: rest) m target
  | back {n m : Nat} {place rest target : Path} (on : Leads v n place.dropLast rest m target) :
    Leads v n place (".." :: rest) m target
  | down {n m : Nat} {place rest target : Path} {name : String} (proper : IsName name)
      (short : name.utf8ByteSize ≤ Route.maxName)
      (directory : v.entry? (place.child name) = some .directory)
      (on : Leads v n (place.child name) rest m target) : Leads v n place (name :: rest) m target
  | through {n m : Nat} {place rest target : Path} {name : String} {link : Route}
      (proper : IsName name) (short : name.utf8ByteSize ≤ Route.maxName)
      (isLink : v.entry? (place.child name) = some (.link link))
      (on : Leads v n (if link.absolute then [] else place) (link.names ++ rest) m target) :
    Leads v (n + 1) place (name :: rest) m target

theorem walk_cons_name {v : Volume} {purpose : Purpose} {slash : Bool} {n : Nat} {place rest : Path}
    {name : String} (proper : IsName name) (short : name.utf8ByteSize ≤ Route.maxName) :
    v.walk purpose n slash place (name :: rest) =
      if rest.isEmpty && slash && purpose = .writing then .error .isDirectory
      else match v.entry? (place.child name) with
        | none => if rest.isEmpty && !(slash && purpose != .entry) then .ok (place.child name)
          else .error .notFound
        | some .directory => v.walk purpose n slash (place.child name) rest
        | some (.link target) =>
          if rest.isEmpty && purpose = .entry then .ok (place.child name)
          else match n with
            | 0 => .error .tooManyLinks
            | n + 1 => v.walk purpose n (if rest.isEmpty then slash || target.slash else slash)
              (if target.absolute then [] else place) (target.names ++ rest)
        | some (.file _ _) | some (.device _) =>
          if rest.isEmpty && !(slash && purpose != .entry) then .ok (place.child name)
          else .error .notDirectory := by
  have fits : ¬ Route.maxName < name.utf8ByteSize := Nat.not_lt.mpr short
  cases n with
  | zero =>
    refine (if_neg proper.1).trans ((if_neg proper.2).trans ((if_neg fits).trans ?_))
    rcases there : v.entry? (place.child name) with _ | (_ | _ | _ | _)
    all_goals simp only [there, walk]
  | succ n =>
    refine (if_neg proper.1).trans ((if_neg proper.2).trans ((if_neg fits).trans ?_))
    rcases there : v.entry? (place.child name) with _ | (_ | _ | _ | _)
    all_goals simp only [there, walk]

theorem walk_nil (v : Volume) (purpose : Purpose) (n : Nat) (slash : Bool) (place : Path) :
    v.walk purpose n slash place [] = .ok place := by
  cases n <;> rfl

theorem walk_dot (v : Volume) (purpose : Purpose) (n : Nat) (slash : Bool) (place rest : Path) :
    v.walk purpose n slash place ("." :: rest) = v.walk purpose n slash place rest := by
  cases n <;> rfl

theorem walk_dots (v : Volume) (purpose : Purpose) (n : Nat) (slash : Bool) (place rest : Path) :
    v.walk purpose n slash place (".." :: rest) = v.walk purpose n slash place.dropLast rest := by
  cases n <;> rfl

theorem walk_long {v : Volume} {purpose : Purpose} {slash : Bool} {n : Nat} {place rest : Path}
    {name : String} (proper : IsName name) (long : Route.maxName < name.utf8ByteSize) :
    v.walk purpose n slash place (name :: rest) = .error .nameTooLong := by
  cases n <;> simp only [walk, walkNames, if_neg proper.1, if_neg proper.2, if_pos long]

/-- A name that a walk meets is the same place, leads back, or is an entry's own. -/
theorem name_cases (name : String) : name = "." ∨ name = ".." ∨ IsName name := by
  by_cases dot : name = "."
  · exact .inl dot
  · by_cases dots : name = ".."
    · exact .inr (.inl dots)
    · exact .inr (.inr ⟨dot, dots⟩)

/-- A walk to a directory goes through directories and links only. -/
theorem leads_of_walk {v : Volume} {n : Nat} {slash : Bool} {place names target : Path}
    (walked : v.walk .content n slash place names = .ok target)
    (directory : v.entry? target = some .directory) : ∃ m, Leads v n place names m target := by
  -- outer induction on the links that are left, inner on the names
  induction n using Nat.strongRecOn generalizing slash place names with
  | ind n fewer =>
    induction names generalizing place with
    | nil =>
      rw [walk_nil] at walked
      cases walked
      exact ⟨n, .here n _⟩
    | cons name rest ih =>
      rcases name_cases name with rfl | rfl | proper
      · rw [walk_dot] at walked
        obtain ⟨m, on⟩ := ih walked
        exact ⟨m, .stay on⟩
      · rw [walk_dots] at walked
        obtain ⟨m, on⟩ := ih walked
        exact ⟨m, .back on⟩
      · rcases Nat.lt_or_ge Route.maxName name.utf8ByteSize with long | short
        · rw [walk_long proper long] at walked
          cases walked
        · rw [walk_cons_name proper short] at walked
          have content : (Purpose.content = .writing) = False := by simp
          have leads : (Purpose.content = .entry) = False := by simp
          simp only [content, leads, decide_false, Bool.and_false, Bool.false_eq_true,
            if_false] at walked
          -- a walk that ends at anything else does not end at a directory
          have final : v.entry? (place.child name) ≠ some .directory →
              ∀ (b : Bool) (cause : IoFault), (if b = true then Except.ok (place.child name)
                else .error cause) ≠ Except.ok target := by
            intro other b cause same
            split at same
            · cases same
              exact other directory
            · cases same
          split at walked
          · next none => exact absurd walked (final (by simp [none]) _ _)
          · next down =>
            obtain ⟨m, on⟩ := ih walked
            exact ⟨m, .down proper short down on⟩
          · next link isLink =>
            cases n with
            | zero => cases walked
            | succ n =>
              obtain ⟨m, on⟩ := fewer n (Nat.lt_succ_self n) walked
              exact ⟨m, .through proper short isLink on⟩
          · next file => exact absurd walked (final (by simp [file]) _ _)
          · next device => exact absurd walked (final (by simp [device]) _ _)

/-- A walk that comes to a name in front of which there are others has gone through directories. -/
theorem leads_of_walk_child {v : Volume} {purpose : Purpose} {n : Nat} {slash : Bool}
    {place names found : Path} {name : String}
    (walked : v.walk purpose n slash place (Path.child names name) = .ok found) :
    ∃ m target, Leads v n place names m target := by
  -- outer induction on the links that are left, inner on the names in front
  induction n using Nat.strongRecOn generalizing slash place names with
  | ind n fewer =>
    induction names generalizing place with
    | nil => exact ⟨n, place, .here n place⟩
    | cons first rest ih =>
      have split : Path.child (first :: rest) name = first :: Path.child rest name := rfl
      have more : (Path.child rest name).isEmpty = false := by simp [Path.child]
      rw [split] at walked
      rcases name_cases first with rfl | rfl | proper
      · rw [walk_dot] at walked
        obtain ⟨m, target, on⟩ := ih walked
        exact ⟨m, target, .stay on⟩
      · rw [walk_dots] at walked
        obtain ⟨m, target, on⟩ := ih walked
        exact ⟨m, target, .back on⟩
      · rcases Nat.lt_or_ge Route.maxName first.utf8ByteSize with long | short
        · rw [walk_long proper long] at walked
          cases walked
        · rw [walk_cons_name proper short, more] at walked
          simp only [Bool.false_and, Bool.false_eq_true, if_false] at walked
          rcases there : v.entry? (place.child first) with _ | (_ | _ | link | _)
          all_goals simp only [there] at walked
          · cases walked
          · cases walked
          · obtain ⟨m, target, on⟩ := ih walked
            exact ⟨m, target, .down proper short there on⟩
          · cases n with
            | zero => cases walked
            | succ n =>
              have behind : link.names ++ Path.child rest name =
                  Path.child (link.names ++ rest) name := (List.append_assoc _ _ _).symm
              obtain ⟨m, target, on⟩ := fewer n (Nat.lt_succ_self n) (behind ▸ walked)
              exact ⟨m, target, .through proper short there on⟩
          · cases walked

/-- Behind a way to a directory a walk goes on from there. -/
theorem walk_append {v : Volume} {n m : Nat} {place names target : Path}
    (leads : Leads v n place names m target) (purpose : Purpose) (slash : Bool) {rest : Path}
    (more : rest ≠ []) :
    v.walk purpose n slash place (names ++ rest) = v.walk purpose m slash target rest := by
  induction leads with
  | here n place => rfl
  | stay on ih => rw [List.cons_append, walk_dot, ih]
  | back on ih => rw [List.cons_append, walk_dots, ih]
  | @down n m place names target name proper short directory on ih =>
    have unended : (names ++ rest).isEmpty = false := by
      rw [List.isEmpty_eq_false_iff]
      simp [more]
    rw [List.cons_append, walk_cons_name proper short, unended, directory]
    exact ih
  | @through n m place names target name link proper short isLink on ih =>
    have unended : (names ++ rest).isEmpty = false := by
      rw [List.isEmpty_eq_false_iff]
      simp [more]
    rw [List.cons_append, walk_cons_name proper short, unended, isLink]
    simp only [Bool.false_and, Bool.false_eq_true, if_false]
    rw [← List.append_assoc]
    exact ih

/-- A way to a directory is one in every volume that keeps the directories and the links. -/
theorem Leads.keep {v w : Volume} {n m : Nat} {place names target : Path}
    (leads : Leads v n place names m target)
    (directories : ∀ p, v.entry? p = some .directory → w.entry? p = some .directory)
    (links : ∀ p link, v.entry? p = some (.link link) → w.entry? p = some (.link link)) :
    Leads w n place names m target := by
  induction leads with
  | here n place => exact .here n place
  | stay on ih => exact .stay ih
  | back on ih => exact .back ih
  | down proper short directory on ih => exact .down proper short (directories _ directory) ih
  | through proper short isLink on ih => exact .through proper short (links _ _ isLink) ih

theorem Leads.child {v : Volume} {n m : Nat} {place names target : Path}
    (leads : Leads v n place names m target) {name : String} (proper : IsName name)
    (short : name.utf8ByteSize ≤ Route.maxName)
    (directory : v.entry? (target.child name) = some .directory) :
    Leads v n place (Path.child names name) m (target.child name) := by
  induction leads with
  | here n place => exact .down proper short directory (.here n _)
  | stay on ih => exact .stay (ih directory)
  | back on ih => exact .back (ih directory)
  | down proper' short' directory' on ih => exact .down proper' short' directory' (ih directory)
  | @through n m place rest target other link proper' short' isLink on ih =>
    have behind : link.names ++ Path.child rest name = Path.child (link.names ++ rest) name :=
      (List.append_assoc _ _ _).symm
    exact .through proper' short' isLink (behind ▸ ih directory)

theorem Leads.walk {v : Volume} {n m : Nat} {place names target : Path}
    (leads : Leads v n place names m target) (slash : Bool) :
    v.walk .content n slash place names = .ok target := by
  induction leads generalizing slash with
  | here n place => rw [walk_nil]
  | stay on ih => rw [walk_dot, ih]
  | back on ih => rw [walk_dots, ih]
  | down proper short directory on ih =>
    rw [walk_cons_name proper short, directory, ← ih slash]
    simp
  | through proper short isLink on ih =>
    rw [walk_cons_name proper short, isLink]
    simp [ih]

theorem Leads.front {v : Volume} {n m : Nat} {place names target : Path}
    (leads : Leads v n place names m target) {a b : Path} (same : names = a ++ b) :
    ∃ m' middle, Leads v n place a m' middle := by
  induction leads generalizing a with
  | here n place =>
    obtain ⟨rfl, -⟩ := List.append_eq_nil_iff.mp same.symm
    exact ⟨n, place, .here n place⟩
  | @stay n m place rest target on ih =>
    rcases List.append_eq_cons_iff.mp same.symm with ⟨rfl, -⟩ | ⟨more, rfl, rest⟩
    · exact ⟨n, place, .here n place⟩
    · obtain ⟨m', middle, front⟩ := ih rest
      exact ⟨m', middle, .stay front⟩
  | @back n m place rest target on ih =>
    rcases List.append_eq_cons_iff.mp same.symm with ⟨rfl, -⟩ | ⟨more, rfl, rest⟩
    · exact ⟨n, place, .here n place⟩
    · obtain ⟨m', middle, front⟩ := ih rest
      exact ⟨m', middle, .back front⟩
  | @down n m place rest target name proper short directory on ih =>
    rcases List.append_eq_cons_iff.mp same.symm with ⟨rfl, -⟩ | ⟨more, rfl, rest⟩
    · exact ⟨n, place, .here n place⟩
    · obtain ⟨m', middle, front⟩ := ih rest
      exact ⟨m', middle, .down proper short directory front⟩
  | @through n m place rest target name link proper short isLink on ih =>
    rcases List.append_eq_cons_iff.mp same.symm with ⟨rfl, -⟩ | ⟨more, rfl, rest⟩
    · exact ⟨n + 1, place, .here _ place⟩
    · obtain ⟨m', middle, front⟩ := ih (a := link.names ++ more) (by rw [rest, List.append_assoc])
      exact ⟨m', middle, .through proper short isLink front⟩

/-- Every place on the way down to a place is a directory. -/
def Rooted (v : Volume) (place : Path) : Prop := ∀ p, p <+: place → v.entry? p = some .directory

theorem rooted_nil (v : Volume) : v.Rooted [] := by
  intro p start
  rw [List.prefix_nil.mp start]
  rfl

theorem Leads.rooted {v : Volume} {n m : Nat} {place names target : Path}
    (leads : Leads v n place names m target) (rooted : v.Rooted place) : v.Rooted target := by
  induction leads with
  | here n place => exact rooted
  | stay on ih => exact ih rooted
  | back on ih => exact ih fun p start => rooted p (start.trans (List.dropLast_prefix _))
  | down proper short directory on ih =>
    refine ih fun p start => ?_
    rcases List.prefix_concat_iff.mp start with rfl | before
    · exact directory
    · exact rooted p before
  | @through n m place rest target name link proper short isLink on ih =>
    refine ih ?_
    split
    · exact rooted_nil v
    · exact rooted

/-- A way from the root through directories. -/
def LeadsTo (v : Volume) (way place : Path) : Prop := ∃ m, Leads v 40 [] way m place

theorem leadsTo_of_follow {v : Volume} {way place : Path} (followed : v.follow way = .ok place)
    (directory : v.entry? place = some .directory) : v.LeadsTo way place :=
  leads_of_walk followed directory

/-- A name can be reached only in a directory. -/
theorem leadsTo_of_reach_child {v : Volume} {purpose : Purpose} {way found : Path} {name : String}
    (reached : v.reach purpose (way.child name : Path) = .ok found) : ∃ place, v.LeadsTo way place := by
  obtain ⟨m, place, on⟩ := leads_of_walk_child reached
  exact ⟨place, m, on⟩

theorem LeadsTo.directory {v : Volume} {way place : Path} (leads : v.LeadsTo way place) :
    v.entry? place = some .directory := by
  obtain ⟨m, on⟩ := leads
  exact on.rooted (rooted_nil v) place List.prefix_rfl

theorem LeadsTo.follow {v : Volume} {way place : Path} (leads : v.LeadsTo way place) :
    v.follow way = .ok place := by
  obtain ⟨m, on⟩ := leads
  exact on.walk false

theorem LeadsTo.front {v : Volume} {a b place : Path} (leads : v.LeadsTo (a ++ b) place) :
    ∃ middle, v.LeadsTo a middle := by
  obtain ⟨m, on⟩ := leads
  obtain ⟨m', middle, front⟩ := on.front rfl
  exact ⟨middle, m', front⟩

theorem LeadsTo.keep {v w : Volume} {way place : Path} (leads : v.LeadsTo way place)
    (directories : ∀ p, v.entry? p = some .directory → w.entry? p = some .directory)
    (links : ∀ p link, v.entry? p = some (.link link) → w.entry? p = some (.link link)) :
    w.LeadsTo way place := by
  obtain ⟨m, on⟩ := leads
  exact ⟨m, on.keep directories links⟩

theorem LeadsTo.child {v : Volume} {way place : Path} (leads : v.LeadsTo way place)
    {name : String} (proper : IsName name) (short : name.utf8ByteSize ≤ Route.maxName)
    (directory : v.entry? (place.child name) = some .directory) :
    v.LeadsTo (way.child name) (place.child name) := by
  obtain ⟨m, on⟩ := leads
  exact ⟨m, on.child proper short directory⟩

/-- What is found under a name in a directory stands there, unless it is a link. -/
theorem LeadsTo.reach_child {v : Volume} {way place : Path} (leads : v.LeadsTo way place)
    {name : String} (proper : IsName name) (short : name.utf8ByteSize ≤ Route.maxName)
    (noLink : ∀ link, v.entry? (place.child name) ≠ some (.link link)) (purpose : Purpose) :
    v.reach purpose (way.child name : Path) = .ok (place.child name) := by
  obtain ⟨m, on⟩ := leads
  have behind := walk_append on purpose false (List.cons_ne_nil name [])
  rw [reach]
  refine behind.trans ?_
  rw [walk_cons_name proper short]
  rcases there : v.entry? (place.child name) with _ | (_ | _ | link | _)
  · rfl
  · rfl
  · rw [walk_nil]
    rfl
  · exact absurd there (noLink link)
  · rfl

theorem LeadsTo.reach_long {v : Volume} {way place : Path} (leads : v.LeadsTo way place)
    {name : String} (proper : IsName name) (long : Route.maxName < name.utf8ByteSize)
    (purpose : Purpose) : v.reach purpose (way.child name : Path) = .error .nameTooLong := by
  obtain ⟨m, on⟩ := leads
  have behind := walk_append on purpose false (List.cons_ne_nil name [])
  rw [reach]
  exact behind.trans (walk_long proper long)

theorem LeadsTo.reach_child_eq {v : Volume} {way place found : Path} (leads : v.LeadsTo way place)
    {name : String} (proper : IsName name)
    (noLink : ∀ link, v.entry? (place.child name) ≠ some (.link link)) {purpose : Purpose}
    (reached : v.reach purpose (way.child name : Path) = .ok found) :
    found = place.child name := by
  rcases Nat.lt_or_ge Route.maxName name.utf8ByteSize with long | short
  · rw [leads.reach_long proper long] at reached
    cases reached
  · rw [leads.reach_child proper short noLink] at reached
    cases reached
    rfl

end PageJournal.Volume
