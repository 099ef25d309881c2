import PageJournal.Proofs.Log.Summary

/-! Lines that repeat numbers of the log change nothing but the counts of duplicates and of damaged
lines, wherever they stand behind the lines they repeat. So it does not matter how often a batch is
written again, as long as each attempt ends with a line. -/
namespace PageJournal.Log

open Text

namespace Gathered

/-- More lines that were only counted. -/
def tally (g : Gathered) (duplicates corrupted : Nat) : Gathered :=
  { g with duplicates := g.duplicates + duplicates, corrupted := g.corrupted + corrupted }

theorem tally_tally (g : Gathered) (d c d' c' : Nat) :
    (g.tally d c).tally d' c' = g.tally (d + d') (c + c') := by
  simp only [tally, Nat.add_assoc]

theorem absorb_tally (g : Gathered) (i : Item) (d c : Nat) :
    (g.tally d c).absorb i = (g.absorb i).tally d c := by
  cases i with
  | damaged cause =>
    simp only [absorb, tally, Nat.add_right_comm]
  | record r =>
    by_cases old : g.kept.any (·.lsn == r.lsn) = true
    · simp [absorb, tally, old, Nat.add_right_comm]
    · simp [absorb, tally, old, keep]

theorem foldl_absorb_tally (is : List Item) (g : Gathered) (d c : Nat) :
    is.foldl absorb (g.tally d c) = (is.foldl absorb g).tally d c := by
  induction is generalizing g with
  | nil => rfl
  | cons i rest ih => simp only [List.foldl_cons, absorb_tally, ih]

/-- Items whose numbers are all kept already are only counted. -/
theorem foldl_absorb_old {is : List Item} {g : Gathered}
    (old : ∀ r ∈ is.filterMap Item.record?, r.lsn ∈ g.kept.map Record.lsn) :
    is.foldl absorb g =
      g.tally (is.filterMap Item.record?).length (is.countP (·.record?.isNone)) := by
  induction is with
  | nil => rfl
  | cons i rest ih =>
    cases i with
    | damaged cause =>
      have later := ih old
      have one : g.absorb (.damaged cause) = g.tally 0 1 := rfl
      simp only [List.foldl_cons, one, foldl_absorb_tally, later, tally_tally]
      simp [List.filterMap_cons, Item.record?]
    | record r =>
      simp only [List.filterMap_cons, Item.record?, List.forall_mem_cons] at old
      have later := ih old.2
      have seen : g.kept.any (·.lsn == r.lsn) = true := by simpa using old.1
      have one : g.absorb (.record r) = g.tally 1 0 := if_pos seen
      simp only [List.foldl_cons, one, foldl_absorb_tally, later, tally_tally]
      simp [Item.record?]

end Gathered

theorem gather_replay {a s : Bytes} (b : Bytes) (closedA : Closed a) (closedS : Closed s)
    (old : ∀ r ∈ recordsOf s, r.lsn ∈ (recordsOf a).map Record.lsn) :
    gather (a ++ s ++ b) =
      (gather (a ++ b)).tally (recordsOf s).length ((lines s).countP (Corrupt ·)) := by
  have kept : ∀ r ∈ found s, r.lsn ∈ (gather a).kept.map Record.lsn := by
    simp only [← found_eq] at old
    simp only [(tells_gather a).kept, mem_lsn_firsts]
    exact old
  have replayed := Gathered.foldl_absorb_old kept
  simp only [← found_eq, ← countP_damaged, gather, items_append (closed_append closedA closedS),
    items_append closedA, List.foldl_append]
  simp only [gather] at replayed
  simp only [replayed, Gathered.foldl_absorb_tally, found]

/-- The summary with more lines that were only counted. -/
def Summary.tally (s : Summary) (duplicates corrupted : Nat) : Summary :=
  { s with
    duplicateRecords := s.duplicateRecords + duplicates
    recordsCorrupted := s.recordsCorrupted + corrupted }

theorem recover_replay {a s : Bytes} (b : Bytes) (closedA : Closed a) (closedS : Closed s)
    (old : ∀ r ∈ recordsOf s, r.lsn ∈ (recordsOf a).map Record.lsn) :
    recover (a ++ s ++ b) = ((recover (a ++ b)).1,
      (recover (a ++ b)).2.tally (recordsOf s).length ((lines s).countP (Corrupt ·))) := by
  simp only [recover, gather_replay b closedA closedS old, Gathered.tally, Gathered.summary,
    Summary.tally]

theorem recordsOf_append {a : Bytes} (closed : Closed a) (b : Bytes) :
    recordsOf (a ++ b) = recordsOf a ++ recordsOf b := by
  simp only [recordsOf, lines_append_closed closed, List.filterMap_append]

/-- A batch that is written again from its start, the first time up to the end of a line. -/
theorem recover_retry {old attempt batch : Bytes} (rest : Bytes) (closed : Closed old)
    (closedAttempt : Closed attempt) (start : attempt <+: batch) :
    recover (old ++ attempt ++ batch ++ rest) = ((recover (old ++ batch ++ rest)).1,
      (recover (old ++ batch ++ rest)).2.tally (recordsOf attempt).length
        ((lines attempt).countP (Corrupt ·))) := by
  obtain ⟨more, rfl⟩ := start
  have seen : ∀ r ∈ recordsOf attempt, r.lsn ∈ (recordsOf (old ++ attempt)).map Record.lsn := by
    intro r mem
    simp only [recordsOf_append closed, List.map_append, List.mem_append]
    exact .inr (List.mem_map_of_mem mem)
  simpa using recover_replay (more ++ rest) (closed_append closed closedAttempt) closedAttempt seen

theorem not_corrupt_of_lines {rs : List Record} {part : Bytes} (closed : Closed part)
    (start : part <+: rs.flatMap Record.line) : (lines part).countP (Corrupt ·) = 0 := by
  have none : (lines (rs.flatMap Record.line)).countP (Corrupt ·) = 0 := by
    simp [← countP_damaged, items_lines, Item.record?, List.countP_eq_zero]
  obtain ⟨more, whole⟩ := start
  simp only [← whole, lines_append_closed closed, List.countP_append] at none
  omega

theorem closed_flatten {parts : List Bytes} (closed : ∀ part ∈ parts, Closed part) :
    Closed parts.flatten := by
  induction parts with
  | nil => exact .inl rfl
  | cons part rest ih =>
    simp only [List.forall_mem_cons] at closed
    exact closed_append closed.1 (ih closed.2)

theorem recover_retries {old : Bytes} (batch : List Record) (rest : Bytes) (closed : Closed old)
    {attempts : List Bytes}
    (parts : ∀ attempt ∈ attempts, Closed attempt ∧ attempt <+: batch.flatMap Record.line) :
    recover (old ++ attempts.flatten ++ batch.flatMap Record.line ++ rest) =
      ((recover (old ++ batch.flatMap Record.line ++ rest)).1,
        (recover (old ++ batch.flatMap Record.line ++ rest)).2.tally
          (recordsOf attempts.flatten).length 0) := by
  -- from the last attempt backwards: each repeats what the attempt behind it, or the batch, begins with
  induction attempts using List.reverseRecOn with
  | nil => simp [Summary.tally, recordsOf, lines]
  | append_singleton before attempt ih =>
    have earlier := fun part mem => parts part (List.mem_append_left _ mem)
    obtain ⟨closedLast, start⟩ := parts attempt (by simp)
    have closedBefore := closed_flatten fun part mem => (earlier part mem).1
    have last := recover_retry rest (closed_append closed closedBefore) closedLast start
    simp only [not_corrupt_of_lines closedLast start, ih earlier] at last
    simpa [recordsOf_append closedBefore, Summary.tally, Nat.add_assoc] using last

/-- Whole lines that repeat numbers of the log before them are counted and change nothing else; so
are the attempts at a batch that stopped behind some line of it. -/
theorem replays_only_counted :
    (∀ a s b : Bytes, Closed a → Closed s →
      (∀ r ∈ recordsOf s, r.lsn ∈ (recordsOf a).map Record.lsn) →
      recover (a ++ s ++ b) = ((recover (a ++ b)).1,
        (recover (a ++ b)).2.tally (recordsOf s).length ((lines s).countP (Corrupt ·)))) ∧
    (∀ (old : Bytes) (attempts : List Bytes) (batch : List Record) (rest : Bytes), Closed old →
      (∀ attempt ∈ attempts, Closed attempt ∧ attempt <+: batch.flatMap Record.line) →
      recover (old ++ attempts.flatten ++ batch.flatMap Record.line ++ rest) =
        ((recover (old ++ batch.flatMap Record.line ++ rest)).1,
          (recover (old ++ batch.flatMap Record.line ++ rest)).2.tally
            (recordsOf attempts.flatten).length 0)) := by
  constructor
  · intro a s b closedA closedS old
    exact recover_replay b closedA closedS old
  · intro old attempts batch rest closed parts
    exact recover_retries batch rest closed parts

/-- A commit and the record before it, written twice and the second time behind a stray line. -/
theorem replay_behind_stray_line :
    let written := [⟨7, 1, 0, .update, 3, 16, 0, false⟩, ⟨7, 2, 0, .update, 3, 16, 0, true⟩]
    let log := written.flatMap Record.line
    recover (log ++ (Utf8.encode ['?', '\n'] ++ log) ++ []) =
      ((recover (log ++ [])).1, (recover (log ++ [])).2.tally 2 1) := by
  intro written log
  have closed : Closed log := closed_lines written
  have stray : Closed (Utf8.encode ['?', '\n']) := by decide
  have records : recordsOf log = written := (found_eq log).symm.trans (found_lines written)
  have clean : (lines log).countP (Corrupt ·) = 0 :=
    not_corrupt_of_lines closed (List.prefix_refl _)
  have noRecord : recordsOf (Utf8.encode ['?', '\n']) = [] := by decide +kernel
  have corrupt : (lines (Utf8.encode ['?', '\n'])).countP (Corrupt ·) = 1 := by decide +kernel
  have old : ∀ r ∈ recordsOf (Utf8.encode ['?', '\n'] ++ log),
      r.lsn ∈ (recordsOf log).map Record.lsn := by
    simp only [recordsOf_append stray, noRecord, List.nil_append]
    exact fun r mem => List.mem_map_of_mem mem
  have replay := replays_only_counted.1 log (Utf8.encode ['?', '\n'] ++ log) []
    closed (closed_append stray closed) old
  simp only [recordsOf_append stray, lines_append_closed stray, List.countP_append, clean, corrupt,
    noRecord, records] at replay
  exact replay

end PageJournal.Log
