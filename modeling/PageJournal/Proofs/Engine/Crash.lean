import PageJournal.Proofs.Engine.Numbered
import PageJournal.Proofs.Engine.Opening
import PageJournal.Proofs.Engine.Standing
import PageJournal.Proofs.Engine.Unbroken

/-! What a crash leaves of the log of an engine that was opened in an empty directory. -/
namespace PageJournal.Session

open Log Engine

theorem held_suffix {done : List Record} {parts : List (List Record)} {hand : Hand}
    (owes : hand.Owes done parts) : parts.flatten <:+ hand.records := by
  cases hand with
  | empty =>
    cases owes
    exact List.nil_suffix
  | writing batch left =>
    obtain ⟨-, before, -, rfl⟩ := owes
    exact List.suffix_append _ _
  | failed batch cause => exact owes.elim

/-- In a log that holds only the first records, nothing else is reached. -/
theorem reaches_behind {done rest : List Record} {n m : Nat} (reaches : Reaches done n m)
    (bound : m ≤ done.length) (inside : n ≤ (done.flatMap Record.line).length) :
    Reaches (done ++ rest) n m := by
  intro i r there
  rcases Nat.lt_or_ge i done.length with early | late
  · rw [List.getElem?_append_left early] at there
    rw [List.take_append_of_le_length (Nat.le_of_lt early)]
    exact reaches i r there
  · have longer : (done.flatMap Record.line).length ≤
        (((done ++ rest).take i).flatMap Record.line).length := by
      rw [List.take_append, List.take_of_length_le late, List.flatMap_append, List.length_append]
      exact Nat.le_add_right _ _
    have nonempty := List.length_pos_iff.mpr r.text_ne_nil
    omega

/-- At every moment of every run of an engine that was opened in an empty directory, the log holds
the lines of the first records that were added, the drain in progress holds the next and the buffer
the others. A close that returned without a fault has written what had been added when it began.
Whatever beginning of the log a crash leaves, recovery returns exactly the records whose text is in
it; a number is only repeated behind `2 ^ 63` transactions. -/
theorem crash_consistent {c : Config} {clock : Clock} {v made after : Volume} {dir home : Path}
    {e : Engine} (directory : makeDirectory c v = .ok (dir, made)) (empty : made.EmptyAt dir home)
    (opened : openWith c clock v = (.ok e, after)) {s : Session} (run : Runs (start e) s) :
    ∃ done held, s.added = done ++ held ++ s.engine.buffer.records ∧ held <:+ s.hand.records ∧
      s.engine.store.disk.read s.engine.logPath = .ok (done.flatMap Record.line) ∧
      (∀ mark ∈ s.closed, mark ≤ done.length) ∧
      (s.added.length ∈ s.closed → done = s.added) ∧
      ∀ cut, cut <+: done.flatMap Record.line →
        ∃ m, Reaches s.added cut.length m ∧ recovered cut = firsts (s.added.take m) ∧
          (recover cut).2.recordsCorrupted ≤ 1 ∧
          (s.stages.length < 2 ^ 63 → recovered cut = s.added.take m ∧
            (recover cut).2.duplicateRecords = 0 ∧ (recover cut).2.orderingViolations = []) := by
  obtain ⟨k, fresh⟩ := fresh_openWith directory empty opened
  obtain ⟨done, parts, standing⟩ :=
    standing_runs (standing_start fresh.layout fresh.waiting) run
  refine ⟨done, parts.flatten, standing.whole, held_suffix standing.owes, standing.layout.read, standing.closed, ?_, ?_⟩
  · intro last
    have front : done <+: s.added := by
      rw [standing.whole, List.append_assoc]
      exact List.prefix_append _ _
    exact front.eq_of_length (Nat.le_antisymm front.length_le (standing.closed _ last))
  · intro cut part
    obtain ⟨m, reaches, bound, kept, one, repeated⟩ := recover_cut part
    have front : done.take m = s.added.take m := by
      rw [standing.whole, List.append_assoc, List.take_append_of_le_length bound]
    rw [front] at kept repeated
    refine ⟨m, ?_, kept, one, fun few => ?_⟩
    · rw [standing.whole, List.append_assoc]
      exact reaches_behind reaches bound part.length_le
    · obtain ⟨j, numbered⟩ :=
        numbered_runs (numbered_start fresh.lsn fresh.transaction) run few
      have distinct : ((s.added.take m).map Record.lsn).Nodup := by
        rw [List.map_take]
        exact numbered.distinct.sublist (List.take_sublist _ _)
      have all := firsts_eq_self distinct
      rw [all] at kept repeated
      refine ⟨kept, by omega, orderingViolations_eq_nil fun id => ?_⟩
      rw [kept]
      exact numbered.inOrder m id

/-- Settings with one page in a directory that is missing at first. -/
def onePage : Config := { dataDir := "data", pageSize := 8, pageCount := 1, payloadSize := 8 }

/-- A transaction that inserts nothing, from its beginning to its end. -/
def inserted (e : Engine) : Engine :=
  ((e.begin 0 .insert 0 []).2.execute (e.begin 0 .insert 0 []).1).2

theorem runs_inserted {e : Engine} (nothing : e.buffer.records = []) :
    Runs (start e) { start e with
      engine := inserted e
      stages := [.ended]
      added := (inserted e).buffer.records } := by
  have begun := runs_begin (start e) 0 .insert 0 []
  obtain ⟨more, grown, executed⟩ := runs_execute (s := { start e with
    engine := (e.begin 0 .insert 0 []).2
    stages := [.begun (e.begin 0 .insert 0 []).1] }) (i := 0) rfl .none
  have all : (inserted e).buffer.records = more := by
    have same : (inserted e).buffer.records = e.buffer.records ++ more := grown
    rw [same, nothing, List.nil_append]
  rw [all]
  exact begun.trans executed

/-- It is closed behind that, and its close returns without a fault. -/
theorem runs_inserted_closed {e : Engine} (nothing : e.buffer.records = [])
    (closes : (inserted e).close.1.isOk = true) :
    Runs (start e) { start e with
      engine := (inserted e).close.2
      stages := [.ended]
      added := (inserted e).buffer.records
      closed := [(inserted e).buffer.records.length] } := by
  have run := (runs_inserted nothing).trans (runs_close rfl rfl)
  rw [if_pos closes] at run
  exact run

theorem crash_consistent_closed :
    ∃ (made after : Volume) (e : Engine) (s : Session),
      makeDirectory onePage .empty = .ok (["data"], made) ∧ made.EmptyAt ["data"] ["data"] ∧
      openWith onePage (.still 5) .empty = (.ok e, after) ∧ Runs (start e) s ∧
      s.added.length = 2 ∧
      s.engine.store.disk.read s.engine.logPath = .ok (s.added.flatMap Record.line) ∧
      ∃ m, recovered (s.added.flatMap Record.line) = s.added.take m := by
  have computed : ((openWith onePage (.still 5) .empty).1.map fun e =>
      (e.buffer.records.length, (inserted e).buffer.records.length,
        (inserted e).close.1.isOk)).toOption = some (0, 2, true) := by
    decide +kernel
  have directory : makeDirectory onePage .empty =
      .ok (["data"], Volume.empty.put ["data"] .directory) := by
    rfl
  have empty : (Volume.empty.put ["data"] .directory).EmptyAt ["data"] ["data"] := by
    refine ⟨by rfl, by rfl, ?_⟩
    intro x mem below
    rcases List.mem_cons.mp mem with rfl | old
    · rfl
    · have others : Volume.empty.entries.all fun x => !(["data"].isPrefixOf x.1) := by rfl
      have other := List.all_eq_true.mp others x (List.mem_filter.mp old).1
      rw [List.isPrefixOf_iff_prefix.mpr below] at other
      cases other
  rcases opened : openWith onePage (.still 5) .empty with ⟨fault | e, after⟩
  · rw [opened] at computed
    cases computed
  · rw [opened] at computed
    have counts := Option.some.inj computed
    simp only [Prod.mk.injEq] at counts
    obtain ⟨none, two, closes⟩ := counts
    have nothing : e.buffer.records = [] := List.length_eq_zero_iff.mp none
    have run := runs_inserted_closed nothing closes
    obtain ⟨done, held, -, -, read, -, last, cuts⟩ :=
      crash_consistent directory empty opened run
    obtain rfl := last (List.mem_singleton_self _)
    refine ⟨_, after, e, _, directory, empty, rfl, run, two, read, ?_⟩
    obtain ⟨m, -, -, -, whole⟩ := cuts _ List.prefix_rfl
    have few : 1 < 2 ^ 63 := by decide
    exact ⟨m, (whole few).1⟩

end PageJournal.Session
