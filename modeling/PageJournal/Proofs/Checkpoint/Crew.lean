import PageJournal.Proofs.Checkpoint.Effect

/-! Threads that flush the pages of one cycle, each the pages of its own share. The flush of a page looks at
no other page, so it does not matter how the threads take turns: the outcomes, the page files and the dirty
pages are those of one thread that flushes all pages in their order. -/
namespace PageJournal

section Chunks

variable {α : Type} {size : Nat}

theorem ne_nil_of_mem_chunksUpTo (pos : 0 < size) {limit : Nat} {l piece : List α}
    (mem : piece ∈ chunksUpTo size limit l) : piece ≠ [] := by
  induction limit generalizing l with
  | zero => cases mem
  | succ limit ih =>
    rw [chunksUpTo] at mem
    split at mem
    · cases mem
    · next more =>
      rcases List.mem_cons.mp mem with rfl | later
      · rw [List.isEmpty_iff] at more
        simp [List.take_eq_nil_iff, more, Nat.ne_of_gt pos]
      · exact ih later

/-- A list goes into as many pieces as have room for it. -/
theorem length_chunksUpTo_le {limit count : Nat} {l : List α} (room : l.length ≤ count * size) :
    (chunksUpTo size limit l).length ≤ count := by
  induction limit generalizing l count with
  | zero => exact Nat.zero_le count
  | succ limit ih =>
    rw [chunksUpTo]
    split
    · exact Nat.zero_le count
    · next more =>
      cases count with
      | zero => simp_all
      | succ count =>
        have rest : (l.drop size).length ≤ count * size := by
          rw [List.length_drop]
          rw [Nat.succ_mul] at room
          omega
        exact Nat.succ_le_succ (ih rest)

end Chunks

namespace Table

variable {t : Table} {trouble : PageId → Trouble} {a b : List PageId}

theorem flushed_append : (t.flushed a trouble).flushed b trouble = t.flushed (a ++ b) trouble := by
  induction a generalizing t with
  | nil =>
    have none : t.flushed [] trouble = t := by simp [flushed]
    rw [none, List.nil_append]
  | cons page rest ih => rw [← flushed_cons, ih, flushed_cons, List.cons_append]

theorem flushed_perm (perm : a.Perm b) : t.flushed a trouble = t.flushed b trouble := by
  unfold flushed
  congr 2
  funext page
  rw [perm.contains_eq]

end Table

namespace PageStore

open Volume

variable {h : Handle} {place : Path} {s : PageStore}

/-- The two stores differ at most in how their files lie on the volume. -/
structure Alike (s s' : PageStore) : Prop where
  store : s = { s' with disk := s.disk }
  files : ∀ q, s.disk.read (s.file q) = s'.disk.read (s'.file q)

/-- Where the page files have no directory, a flush does nothing. -/
theorem flush_lost (lost : ∀ place, ¬ s.disk.LeadsTo s.dir place) (page : PageId) (t : Trouble) :
    (s.flush page t).2 = s := by
  have unread : ∀ bytes, s.readFile page ≠ .ok bytes := by
    intro bytes read
    obtain ⟨source, opened, -⟩ := bind_eq_ok.mp (readFile_eq_ok.mp read).1
    obtain ⟨found, followed, -⟩ := bind_eq_ok.mp opened
    obtain ⟨place, leads⟩ := leadsTo_of_reach_child followed
    exact lost place leads
  rcases s.flush_cases page t with ⟨fault, refused⟩ | ⟨bytes, cause, read, -⟩ | ⟨bytes, read, -⟩
  · rw [refused]
  all_goals exact absurd read (unread bytes)

end PageStore

namespace Checkpoint

/-- What a thread was told of the pages that it has flushed, and what is left of its share. -/
structure Duty where
  told : Outcomes
  left : List PageId

/-- Threads that flush pages of one store. -/
structure Crew where
  store : PageStore
  duties : List Duty

namespace Crew

open Checkpointer PageStore

def start (shares : List (List PageId)) (s : PageStore) : Crew := ⟨s, shares.map fun share => ⟨[], share⟩⟩

/-- The thread of that number flushes the next page of its share, if there is one. -/
def turn (flush : Flush) (c : Crew) (i : Nat) : Option Crew :=
  match c.duties[i]? with
  | some ⟨told, page :: left⟩ =>
    let (outcome, store) := flush page c.store
    some ⟨store, c.duties.set i ⟨told ++ [(page, outcome.map fun _ => ())], left⟩⟩
  | _ => none

/-- The threads take turns in this order. -/
def turns (flush : Flush) (c : Crew) (order : List Nat) : Option Crew := order.foldlM (turn flush) c

/-- What the threads were told, thread by thread. -/
def outcomes (c : Crew) : Outcomes := c.duties.flatMap (·.told)

def left (c : Crew) : List PageId := c.duties.flatMap (·.left)

/-- All shares are flushed. -/
def Finished (c : Crew) : Prop := c.left = []

variable {flush : Flush} {c d : Crew} {i : Nat}

theorem turn_eq_some (took : c.turn flush i = some d) : ∃ front told page left behind,
    c.duties = front ++ ⟨told, page :: left⟩ :: behind ∧
    d = ⟨(flush page c.store).2,
      front ++ ⟨told ++ [(page, (flush page c.store).1.map fun _ => ())], left⟩ :: behind⟩ := by
  unfold turn at took
  split at took
  · next told page left here =>
    cases took
    obtain ⟨within, same⟩ := List.getElem?_eq_some_iff.mp here
    refine ⟨c.duties.take i, told, page, left, c.duties.drop (i + 1), ?_, ?_⟩
    · rw [← same, List.getElem_cons_drop, List.take_append_drop]
    · rw [List.set_eq_take_append_cons_drop, if_pos within]
  · cases took

/-- Unless all is flushed, some thread can take a turn. -/
theorem exists_turn (more : ¬ c.Finished) : ∃ i, (c.turn flush i).isSome = true := by
  have waiting : ∃ duty ∈ c.duties, duty.left ≠ [] := by
    simpa [Finished, left, List.flatMap_eq_nil_iff] using more
  obtain ⟨⟨told, rest⟩, mem, some⟩ := waiting
  obtain ⟨i, here⟩ := List.getElem?_of_mem mem
  refine ⟨i, ?_⟩
  cases rest with
  | nil => exact absurd rfl some
  | cons page rest => simp [turn, here]

/-- The flush of a page comes out the same whatever was flushed before, and `after` tells what a store is
like when these pages have been flushed. -/
def Independent (flush : Flush) (outcome : PageId → Except Fault Unit)
    (after : List PageId → PageStore → Prop) : Prop :=
  ∀ done s page, after done s →
    ((flush page s).1.map fun _ => ()) = outcome page ∧ after (done ++ [page]) (flush page s).2

variable {outcome : PageId → Except Fault Unit} {after : List PageId → PageStore → Prop}
  {shares : List (List PageId)} {done : List PageId} {s : PageStore}

/-- One thread is told of every page what that page's flush comes to. -/
theorem Independent.flushPages (independent : Independent flush outcome after) (state : after done s)
    (pages : List PageId) :
    (flushPages flush pages s).1 = pages.map (fun page => (page, outcome page)) ∧
      after (done ++ pages) (flushPages flush pages s).2 := by
  induction pages generalizing done s with
  | nil => exact ⟨rfl, by rwa [List.append_nil]⟩
  | cons page rest ih =>
    obtain ⟨told, next⟩ := independent done s page state
    obtain ⟨later, last⟩ := ih next
    rw [List.append_assoc] at last
    refine ⟨?_, last⟩
    rw [Checkpointer.flushPages, List.map_cons, ← told]
    exact congrArg (List.cons _) later

/-- Of the pages of the shares, these are flushed and the others are left; and each thread was told what the
pages behind it came to. -/
structure Sound (outcome : PageId → Except Fault Unit) (after : List PageId → PageStore → Prop)
    (shares : List (List PageId)) (done : List PageId) (c : Crew) : Prop where
  state : after done c.store
  told : c.duties.map (fun duty => duty.told ++ duty.left.map fun page => (page, outcome page)) =
    shares.map (List.map fun page => (page, outcome page))
  flushed : (done ++ c.left).Perm shares.flatten

theorem sound_start (state : after [] s) : (start shares s).Sound outcome after shares [] where
  state := state
  told := by simp [start]
  flushed := by simp [start, left, List.flatMap_map]

theorem Sound.turn (sound : c.Sound outcome after shares done)
    (independent : Independent flush outcome after) (took : c.turn flush i = some d) :
    ∃ page, d.Sound outcome after shares (done ++ [page]) := by
  obtain ⟨front, told, page, left, behind, duties, rfl⟩ := turn_eq_some took
  obtain ⟨comes, state⟩ := independent done c.store page sound.state
  refine ⟨page, state, ?_, ?_⟩
  · rw [← sound.told, duties, comes]
    simp
  · refine List.Perm.trans ?_ sound.flushed
    simp only [Crew.left, duties, List.flatMap_append, List.flatMap_cons, List.append_assoc,
      List.cons_append, List.nil_append]
    exact List.Perm.append_left done List.perm_middle.symm

theorem Sound.turns (sound : c.Sound outcome after shares done)
    (independent : Independent flush outcome after) {order : List Nat}
    (took : c.turns flush order = some d) :
    ∃ more, d.Sound outcome after shares (done ++ more) ∧ more.length = order.length := by
  induction order generalizing c done with
  | nil =>
    cases took
    exact ⟨[], by rwa [List.append_nil], rfl⟩
  | cons i rest ih =>
    obtain ⟨next, first, later⟩ := Option.bind_eq_some_iff.mp took
    obtain ⟨page, sound⟩ := sound.turn independent first
    obtain ⟨more, sound, length⟩ := ih sound later
    exact ⟨page :: more, by rwa [List.append_assoc] at sound, by simp [length]⟩

theorem Sound.outcomes (sound : c.Sound outcome after shares done) (finished : c.Finished) :
    c.outcomes = shares.flatten.map fun page => (page, outcome page) := by
  have whole : c.duties.map (·.told) =
      c.duties.map fun duty => duty.told ++ duty.left.map fun page => (page, outcome page) := by
    refine List.map_congr_left fun duty mem => ?_
    rw [List.flatMap_eq_nil_iff.mp finished duty mem, List.map_nil, List.append_nil]
  rw [Crew.outcomes, List.flatMap_def, whole, sound.told, List.map_flatten]

/-- However the shares are flushed, each turn brings the end nearer, and at the end the outcomes and the store
are those of one thread. -/
theorem turns_alike (independent : Independent flush outcome after) (state : after [] s)
    (alike : ∀ {a b s s'}, a.Perm b → after a s → after b s' → s.Alike s') {order : List Nat}
    (took : (start shares s).turns flush order = some c) :
    order.length + c.left.length = shares.flatten.length ∧
      (c.Finished → c.outcomes = (flushPages flush shares.flatten s).1 ∧
        c.store.Alike (flushPages flush shares.flatten s).2) := by
  obtain ⟨done, sound, length⟩ := (sound_start state).turns independent took
  rw [List.nil_append] at sound
  obtain ⟨told, last⟩ := independent.flushPages state shares.flatten
  rw [List.nil_append] at last
  refine ⟨by rw [← length, ← List.length_append, sound.flushed.length_eq], fun finished => ⟨?_, ?_⟩⟩
  · rw [sound.outcomes finished, told]
  · refine alike ?_ sound.state last
    rw [← List.append_nil done, ← show c.left = [] from finished]
    exact sound.flushed

/-- A store after these pages were flushed, in whatever order. -/
structure Flushed (h : Handle) (place : Path) (trouble : PageId → Trouble) (first : PageStore)
    (done : List PageId) (s : PageStore) : Prop where
  orderly : s.disk.Orderly h first.dir place
  frame : s = { first with disk := s.disk, dirty := s.dirty }
  table : s.table place = (first.table place).flushed done trouble
  files : ∀ q, s.disk.read (first.file q) = first.disk.read (first.file q)

variable {h : Handle} {place : Path} {trouble : PageId → Trouble} {first : PageStore}

theorem flushed_start (orderly : first.disk.Orderly h first.dir place) :
    Flushed h place trouble first [] first :=
  ⟨orderly, rfl, by simp [Table.flushed], fun _ => rfl⟩

theorem Flushed.file (flushed : Flushed h place trouble first done s) (q : PageId) :
    s.file q = first.file q := by
  rw [flushed.frame, PageStore.file, PageStore.file]

theorem Flushed.alike {a b : List PageId} {s s' : PageStore} (perm : a.Perm b)
    (flushed : Flushed h place trouble first a s) (flushed' : Flushed h place trouble first b s') :
    s.Alike s' := by
  have dirty : s.dirty = s'.dirty :=
    congrArg Table.dirty (flushed.table.trans ((Table.flushed_perm perm).trans flushed'.table.symm))
  refine ⟨?_, fun q => ?_⟩
  · rw [flushed'.frame, ← dirty]
    exact flushed.frame
  · rw [flushed.file, flushed'.file, flushed.files, flushed'.files]

/-- The flushes of a store are independent of each other. -/
theorem independent_flush (orderly : first.disk.Orderly h first.dir place)
    (trouble : PageId → Trouble) : Independent (fun page s => s.flush page (trouble page))
      (fun page => (first.flush page (trouble page)).1.map fun _ => ())
      (Flushed h place trouble first) := by
  intro done s page flushed
  have dir : s.dir = first.dir := by rw [flushed.frame]
  have now : s.disk.Orderly h s.dir place := dir ▸ flushed.orderly
  obtain ⟨outcome, later, table⟩ := flush_table now page trouble
  obtain ⟨disk, dirty, frame⟩ := s.flush_frame page (trouble page)
  -- a flush reads nothing that other flushes change
  have same : (s.table place).flush page (trouble page) =
      (first.table place).flush page (trouble page) := by
    rw [flushed.table]
    rfl
  refine ⟨?_, dir ▸ later, ?_, ?_, fun q => ?_⟩
  · simp only [outcome, same, (flush_table orderly page trouble).1]
  · rw [frame, flushed.frame]
  · rw [table, flushed.table, Table.flushed_append]
  · rw [← flushed.files q, ← flushed.file q]
    exact flush_read now page (trouble page) q

/-- Where the page files have no directory, the flushes do nothing at all. -/
theorem independent_lost (lost : ∀ place, ¬ first.disk.LeadsTo first.dir place)
    (trouble : PageId → Trouble) : Independent (fun page s => s.flush page (trouble page))
      (fun page => (first.flush page (trouble page)).1.map fun _ => ()) (fun _ s => s = first) := by
  rintro done s page rfl
  exact ⟨rfl, flush_lost lost page (trouble page)⟩

end Crew

namespace Checkpointer

variable {threads : Nat} {pages : List PageId}

theorem length_shares_le (threads : Nat) (pages : List PageId) :
    (shares (max threads 1) pages).length ≤ max threads 1 := by
  unfold shares
  split
  · exact Nat.le_max_right threads 1
  · next several =>
    simp only [Bool.or_eq_true, decide_eq_true_eq, not_or, Nat.not_le] at several
    generalize max threads 1 = n at several
    refine length_chunksUpTo_le ?_
    have quotient := Nat.div_add_mod (pages.length + n - 1) n
    have rest := Nat.mod_lt (pages.length + n - 1) (Nat.lt_of_succ_lt several.1)
    generalize n * ((pages.length + n - 1) / n) = whole at quotient ⊢
    omega

theorem ne_nil_of_mem_shares {share : List PageId} (some : pages ≠ []) (mem : share ∈ shares threads pages) :
    share ≠ [] := by
  unfold shares at mem
  split at mem
  · exact List.mem_singleton.mp mem ▸ some
  · next several =>
    simp only [Bool.or_eq_true, decide_eq_true_eq, not_or, Nat.not_le] at several
    exact ne_nil_of_mem_chunksUpTo (Nat.div_pos (by omega) (by omega)) mem

end Checkpointer

namespace Crew

open Checkpointer PageStore

variable {h : Handle} {s : PageStore}

/-- The pages go to the threads in consecutive shares, none of them empty, of the size that the word
computes. However the threads take turns, they come to an end, and then the outcomes in the order of the
pages, the page files and the rest of the store are what they are when one thread flushes all pages. -/
theorem flushes_as_one (orderly : ∀ place, s.disk.LeadsTo s.dir place → s.disk.Orderly h s.dir place)
    (trouble : PageId → Trouble) (threads : Nat) (pages : List PageId)
    (fits : pages.length + max threads 1 - 1 < 2 ^ 64) :
    let flush : Flush := fun page s => s.flush page (trouble page)
    let parts := shares (max threads 1) pages
    (parts.flatten = pages ∧ parts.length ≤ max threads 1 ∧ (pages ≠ [] → ∀ part ∈ parts, part ≠ []) ∧
      (2 ≤ threads → 2 ≤ pages.length → parts = chunks (shareSize threads pages.length).toNat pages)) ∧
    flushShares flush parts s = flushPages flush pages s ∧
    ∀ order crew, (start parts s).turns flush order = some crew →
      order.length + crew.left.length = pages.length ∧
      (¬ crew.Finished → ∃ i, (crew.turn flush i).isSome = true) ∧
      (crew.Finished → crew.outcomes = (flushPages flush pages s).1 ∧
        crew.store.Alike (flushPages flush pages s).2) := by
  intro flush parts
  have whole : parts.flatten = pages := flatten_shares (max threads 1) pages
  refine ⟨⟨whole, length_shares_le threads pages, fun some _ => ne_nil_of_mem_shares some,
    fun several some => ?_⟩, ?_, fun order crew took => ?_⟩
  · have most : max threads 1 = threads := Nat.max_eq_left (Nat.le_of_succ_le several)
    rw [most] at fits
    exact (congrArg (shares · pages) most).trans (shares_eq_chunks several some (by omega)).2
  · rw [flushShares_eq, whole]
  · suffices ends : order.length + crew.left.length = parts.flatten.length ∧
        (crew.Finished → crew.outcomes = (flushPages flush parts.flatten s).1 ∧
          crew.store.Alike (flushPages flush parts.flatten s).2) by
      rw [whole] at ends
      exact ⟨ends.1, exists_turn, ends.2⟩
    by_cases found : ∃ place, s.disk.LeadsTo s.dir place
    · obtain ⟨place, leads⟩ := found
      have orderly := orderly place leads
      exact turns_alike (independent_flush orderly trouble) (flushed_start orderly) Flushed.alike took
    · rw [not_exists] at found
      refine turns_alike (independent_lost found trouble) rfl ?_ took
      rintro a b s₁ s₂ - rfl rfl
      exact ⟨rfl, fun _ => rfl⟩

/-- The second page cannot be made durable. -/
def secondRefused (page : PageId) : Trouble := fun call =>
  if page = 1 ∧ call = .sync then some .noSpace else none

/-- Two threads flush two pages and one that the store does not have; the second thread goes first. -/
theorem flushes_as_one_second_first :
    let flush : Flush := fun page s => s.flush page (secondRefused page)
    ∃ crew, (start (shares 2 [0, 1, 2]) bothClear).turns flush [1, 0, 0] = some crew ∧
      crew.outcomes =
        [(0, .ok ()), (1, .error (.io .noSpace)), (2, .error (.pageOutOfRange 2 2))] ∧
      crew.store.dirty = [1] ∧ crew.store.Alike (flushPages flush [0, 1, 2] bothClear).2 := by
  intro flush
  have orderly : ∀ place, bothClear.disk.LeadsTo bothClear.dir place →
      bothClear.disk.Orderly (.device .null) bothClear.dir place := by
    intro place leads
    obtain rfl : place = ["pages"] := by
      have followed : bothClear.disk.follow bothClear.dir = .ok ["pages"] := by rfl
      exact Except.ok.inj (leads.follow.symm.trans followed)
    exact tended_bothClear.orderly
  obtain ⟨crew, took⟩ :
      ∃ crew, (start (shares 2 [0, 1, 2]) bothClear).turns flush [1, 0, 0] = some crew := ⟨_, rfl⟩
  obtain ⟨-, -, ends⟩ := flushes_as_one orderly secondRefused 2 [0, 1, 2] (by decide)
  obtain ⟨length, -, last⟩ := ends [1, 0, 0] crew took
  have finished : crew.Finished := List.eq_nil_of_length_eq_zero (Nat.add_left_cancel length)
  obtain ⟨outcomes, alike⟩ := last finished
  refine ⟨crew, took, outcomes.trans ?_, ?_, alike⟩
  · rfl
  · rw [alike.store]
    rfl

end Crew

end Checkpoint

end PageJournal
