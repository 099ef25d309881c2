import PageJournal.Proofs.Engine.Faltering
import PageJournal.Proofs.Engine.Reopening
import PageJournal.Proofs.Word

/-! Which numbers a session hands out. They are consecutive, and go on where the log ended that was opened.
So none of them stands in that log, whatever it holds, and as long as they fit into their words none is
handed out twice, whether the calls on the log fail or not. If none fails, reading the log again drops no record
of the session as a repetition. A batch that is written again behind a failed call stands there twice. -/
namespace PageJournal

open Log

/-- So many numbers from the first one on. -/
def consecutive (first : UInt64) (n : Nat) : List UInt64 :=
  (List.range n).map fun i => first + UInt64.ofNat i

theorem consecutive_succ (first : UInt64) (n : Nat) :
    consecutive first (n + 1) = consecutive first n ++ [first + UInt64.ofNat n] := by
  simp [consecutive, List.range_succ]

theorem length_consecutive (first : UInt64) (n : Nat) : (consecutive first n).length = n := by
  rw [consecutive, List.length_map, List.length_range]

/-- The numbers behind a last one are higher and distinct while they fit. -/
theorem consecutive_above {last : UInt64} {n : Nat} (room : last.toNat + n < 2 ^ 64) :
    (∀ k ∈ consecutive (last + 1) n, last < k) ∧ (consecutive (last + 1) n).Nodup := by
  have value : ∀ i < n, (last + 1 + UInt64.ofNat i).toNat = last.toNat + 1 + i := by
    intro i inside
    simp only [UInt64.toNat_add, UInt64.toNat_ofNat', UInt64.toNat_one]
    omega
  constructor
  · intro k mem
    obtain ⟨i, inside, rfl⟩ := List.mem_map.mp mem
    rw [UInt64.lt_iff_toNat_lt, value i (List.mem_range.mp inside)]
    omega
  · refine List.Nodup.map_on (fun i inside j inside' same => ?_) List.nodup_range
    have nats := congrArg UInt64.toNat same
    rw [value i (List.mem_range.mp inside), value j (List.mem_range.mp inside')] at nats
    omega

/-- The number of the transaction, while it is under way. -/
def Stage.id? : Stage → Option UInt64
  | .claimed id => some id
  | .begun t | .intended t | .applied t | .numbered t _ => some t.id
  | .ended => none

namespace Session

def lsnTo (s t : Session) : List UInt64 :=
  if t.engine.sequence.next = s.engine.sequence.next then [] else [s.engine.allocateLsn.1]

def idTo (s t : Session) : List UInt64 :=
  if t.engine.nextTransaction = s.engine.nextTransaction then [] else [s.engine.allocateTransaction.1]

/-- A run of such steps, and the sequence numbers and transactions that it handed out, in this order. -/
inductive Hands (steps : Session → Session → Prop) (s : Session) :
    List UInt64 → List UInt64 → Session → Prop where
  | here : Hands steps s [] [] s
  | more {lsns ids : List UInt64} {t u : Session} (run : Hands steps s lsns ids t) (step : steps t u) :
    Hands steps s (lsns ++ t.lsnTo u) (ids ++ t.idTo u) u

variable {s t u : Session} {lsns ids lsns' ids' : List UInt64} {steps : Session → Session → Prop}

theorem Hands.trans (run : Hands steps s lsns ids t) (later : Hands steps t lsns' ids' u) :
    Hands steps s (lsns ++ lsns') (ids ++ ids') u := by
  induction later with
  | here => simpa using run
  | more _ step ih => simpa using ih.more step

theorem Hands.mono {more : Session → Session → Prop} (le : ∀ {s t}, steps s t → more s t)
    (run : Hands steps s lsns ids t) : Hands more s lsns ids t := by
  induction run with
  | here => exact .here
  | more run step ih => exact ih.more (le step)

theorem Hands.may (run : Hands (Proceeds false) s lsns ids t) : Hands (Proceeds true) s lsns ids t :=
  run.mono Proceeds.may

theorem Runs.hands (run : Runs s t) : ∃ lsns ids, Hands (Proceeds false) s lsns ids t := by
  induction run with
  | here => exact ⟨_, _, .here⟩
  | more run step ih =>
    obtain ⟨lsns, ids, hands⟩ := ih
    exact ⟨_, _, hands.more (.usual step)⟩

/-- Where no call on the log fails, a run is one on a log that takes everything. -/
theorem Hands.runs {home : Path} {k : Nat} {old : Bytes} {done : List Record} {parts : List (List Record)}
    (standing : s.Standing home k old done parts) (run : Hands (Proceeds false) s lsns ids t) : Runs s t := by
  induction run with
  | here => exact .here
  | more run proceeds ih =>
    obtain ⟨done', parts', standing⟩ := standing_runs standing ih
    exact ih.more (standing.usual proceeds)

/-- So many numbers have been handed out behind the first ones, and every one is in a record or is held by
a transaction. -/
structure Handed (first firstId : UInt64) (n m : Nat) (s : Session) : Prop where
  next : s.engine.sequence.next = first + UInt64.ofNat n
  transaction : s.engine.nextTransaction = firstId + UInt64.ofNat m
  count : s.stages.length = m
  places : (s.added.map Record.lsn ++ s.stages.filterMap Stage.holds).Perm (consecutive first n)
  known : ∀ stage ∈ s.stages, ∀ i, stage.id? = some i → i ∈ consecutive firstId m
  owned : ∀ r ∈ s.added, r.transaction ∈ consecutive firstId m

variable {first firstId : UInt64} {n m : Nat}

theorem handed_start (e : Engine) :
    (start e).Handed e.sequence.next e.nextTransaction 0 0 where
  next := by simp [start]
  transaction := by simp [start]
  count := rfl
  places := .refl _
  known := nofun
  owned := nofun

/-- A step that touches no transaction and hands out no number. -/
theorem Handed.same (handed : s.Handed first firstId n m) (stages : t.stages = s.stages)
    (added : t.added = s.added) (next : t.engine.sequence.next = s.engine.sequence.next)
    (transaction : t.engine.nextTransaction = s.engine.nextTransaction) : t.Handed first firstId n m where
  next := next.trans handed.next
  transaction := transaction.trans handed.transaction
  count := stages ▸ handed.count
  places := by
    rw [stages, added]
    exact handed.places
  known := stages ▸ handed.known
  owned := added ▸ handed.owned

/-- A transaction goes on. What it held and what it takes is in a record then, or it holds it. -/
theorem Handed.move (handed : s.Handed first firstId n m) {i : Nat} {stage : Stage}
    (here : s.stages[i]? = some stage) (new : Stage) (stages : t.stages = s.stages.set i new) {n' : Nat}
    (next : t.engine.sequence.next = first + UInt64.ofNat n')
    (transaction : t.engine.nextTransaction = s.engine.nextTransaction) {given : List UInt64}
    (more : consecutive first n' = consecutive first n ++ given)
    (places : (t.added.map Record.lsn ++ new.holds.toList).Perm
      (s.added.map Record.lsn ++ stage.holds.toList ++ given))
    (known : ∀ i, new.id? = some i → stage.id? = some i)
    (owned : ∀ r ∈ t.added, r ∈ s.added ∨ stage.id? = some r.transaction) :
    t.Handed first firstId n' m where
  next := next
  transaction := transaction.trans handed.transaction
  count := by rw [stages, List.length_set, handed.count]
  places := by
    obtain ⟨others, before, after⟩ := filterMap_set Stage.holds here
    rw [stages, more, List.perm_iff_count]
    intro k
    have whole := handed.places.count_eq k
    have held := before.count_eq k
    have holds := (after new).count_eq k
    have moved := places.count_eq k
    simp only [List.count_append] at whole held holds moved ⊢
    omega
  known := by
    rw [stages]
    intro x mem k holds
    rcases List.mem_or_eq_of_mem_set mem with before | rfl
    · exact handed.known x before k holds
    · exact handed.known stage (List.mem_of_getElem? here) k (known k holds)
  owned := by
    intro r mem
    rcases owned r mem with old | own
    · exact handed.owned r old
    · exact handed.known stage (List.mem_of_getElem? here) _ own

theorem Handed.take (handed : s.Handed first firstId n m) {i : Nat} {stage : Stage}
    (here : s.stages[i]? = some stage) (new : Stage) (free : stage.holds = none)
    (holds : new.holds = some s.engine.allocateLsn.1)
    (known : ∀ i, new.id? = some i → stage.id? = some i) :
    (s.move i new s.engine.allocateLsn.2).Handed first firstId (n + 1) m := by
  have next : s.engine.allocateLsn.2.sequence.next = first + UInt64.ofNat (n + 1) := by
    have succ : s.engine.allocateLsn.2.sequence.next = first + UInt64.ofNat n + 1 :=
      congrArg (· + 1) handed.next
    rw [succ, UInt64.ofNat_add, UInt64.add_assoc]
    rfl
  refine handed.move here new rfl next rfl (consecutive_succ first n) ?_ known fun r mem => .inl mem
  have given : s.engine.allocateLsn.1 = first + UInt64.ofNat n := handed.next
  rw [holds, free, given, Option.toList_none, List.append_nil]
  exact .refl _

theorem Handed.log (handed : s.Handed first firstId n m) {i : Nat} {stage : Stage}
    (here : s.stages[i]? = some stage) (new : Stage) {x : Transaction} {number : UInt64}
    (holds : stage.holds = some number) (free : new.holds = none) (own : stage.id? = some x.id)
    (known : ∀ i, new.id? = some i → stage.id? = some i) {e : Engine}
    (next : e.sequence.next = s.engine.sequence.next)
    (transaction : e.nextTransaction = s.engine.nextTransaction) :
    (s.log i new x number e).Handed first firstId n m := by
  refine handed.move here new rfl (next.trans handed.next) transaction (List.append_nil _).symm ?_ known
    fun r mem => ?_
  · rw [holds, free, Option.toList_none, List.append_nil, List.append_nil]
    simp only [Session.log, List.map_append]
    exact .refl _
  · rcases List.mem_append.mp mem with old | new
    · exact .inl old
    · rw [List.mem_singleton.mp new]
      exact .inr own

theorem Handed.claim (handed : s.Handed first firstId n m) : Handed first firstId n (m + 1) { s with
    engine := s.engine.allocateTransaction.2
    stages := s.stages ++ [.claimed s.engine.allocateTransaction.1] } where
  next := handed.next
  transaction := by
    have succ : s.engine.allocateTransaction.2.nextTransaction = firstId + UInt64.ofNat m + 1 :=
      congrArg (· + 1) handed.transaction
    rw [succ, UInt64.ofNat_add, UInt64.add_assoc]
    rfl
  count := by rw [List.length_append, handed.count, List.length_singleton]
  places := by
    have none : [Stage.claimed s.engine.allocateTransaction.1].filterMap Stage.holds = [] := rfl
    rw [List.filterMap_append, none, List.append_nil]
    exact handed.places
  known := by
    intro x mem k holds
    rw [consecutive_succ]
    rcases List.mem_append.mp mem with before | now
    · exact List.mem_append_left _ (handed.known x before k holds)
    · rw [List.mem_singleton.mp now] at holds
      refine List.mem_append_right _ (List.mem_singleton.mpr ?_)
      rw [← handed.transaction]
      exact (Option.some.inj holds).symm
  owned r mem := by
    rw [consecutive_succ]
    exact List.mem_append_left _ (handed.owned r mem)

/-- Between two states numbers were handed out that go on behind so many. -/
def GoesOn (first firstId : UInt64) (n m : Nat) (s t : Session) : Prop :=
  ∃ n' m', consecutive first n' = consecutive first n ++ s.lsnTo t ∧
    consecutive firstId m' = consecutive firstId m ++ s.idTo t ∧ t.Handed first firstId n' m'

theorem Handed.goesOn (handed : t.Handed first firstId n m)
    (next : t.engine.sequence.next = s.engine.sequence.next)
    (transaction : t.engine.nextTransaction = s.engine.nextTransaction) :
    GoesOn first firstId n m s t := by
  have lsns : s.lsnTo t = [] := if_pos next
  have ids : s.idTo t = [] := if_pos transaction
  refine ⟨n, m, ?_, ?_, handed⟩
  · rw [lsns, List.append_nil]
  · rw [ids, List.append_nil]

theorem Handed.quiet (handed : s.Handed first firstId n m) (stages : t.stages = s.stages)
    (added : t.added = s.added) (next : t.engine.sequence.next = s.engine.sequence.next)
    (transaction : t.engine.nextTransaction = s.engine.nextTransaction) :
    GoesOn first firstId n m s t :=
  (handed.same stages added next transaction).goesOn next transaction

theorem Handed.taken (handed : s.Handed first firstId n m) (after : t.Handed first firstId (n + 1) m)
    (next : t.engine.sequence.next = s.engine.sequence.next + 1)
    (transaction : t.engine.nextTransaction = s.engine.nextTransaction) :
    GoesOn first firstId n m s t := by
  have lsns : s.lsnTo t = [s.engine.sequence.next] := if_neg (next ▸ succ_ne _)
  have ids : s.idTo t = [] := if_pos transaction
  refine ⟨n + 1, m, ?_, ?_, after⟩
  · rw [lsns, handed.next, consecutive_succ]
  · rw [ids, List.append_nil]

theorem Handed.claimed (handed : s.Handed first firstId n m) (after : t.Handed first firstId n (m + 1))
    (next : t.engine.sequence.next = s.engine.sequence.next)
    (transaction : t.engine.nextTransaction = s.engine.nextTransaction + 1) :
    GoesOn first firstId n m s t := by
  have lsns : s.lsnTo t = [] := if_pos next
  have ids : s.idTo t = [s.engine.nextTransaction] := if_neg (transaction ▸ succ_ne _)
  refine ⟨n, m + 1, ?_, ?_, after⟩
  · rw [lsns, List.append_nil]
  · rw [ids, handed.transaction, consecutive_succ]

theorem handed_step (handed : s.Handed first firstId n m) (step : Step s t) :
    GoesOn first firstId n m s t := by
  cases step with
  | claim => exact handed.claimed handed.claim rfl rfl
  | begin claimed =>
    exact handed.taken (handed.take claimed (.begun _) rfl rfl fun _ known => known) rfl rfl
  | intend begun =>
    exact Handed.goesOn (handed.log begun (.intended _) rfl rfl rfl (fun _ known => known) rfl rfl) rfl rfl
  | apply intended =>
    refine Handed.goesOn (handed.move intended (.applied _) rfl handed.next rfl
      (List.append_nil _).symm ?_ (fun _ known => known) fun r mem => .inl mem) rfl rfl
    rw [List.append_nil]
    exact .refl _
  | abandon intended =>
    refine Handed.goesOn (handed.move intended .ended rfl handed.next rfl
      (List.append_nil _).symm ?_ nofun fun r mem => .inl mem) rfl rfl
    rw [List.append_nil]
    exact .refl _
  | number applied =>
    exact handed.taken (handed.take applied (.numbered _ _) rfl rfl fun _ known => known) rfl rfl
  | commit numbered =>
    exact Handed.goesOn (handed.log numbered .ended rfl rfl rfl nofun rfl rfl) rfl rfl
  | drain running silent => exact handed.quiet rfl rfl (next_step _ _ _) rfl
  | close alone => exact handed.quiet rfl rfl (by simp) (by simp)
  | late closing writing which => exact handed.quiet rfl rfl (next_step _ _ _) rfl
  | @leave c closing drained =>
    have rest : (farewell s.engine c.stopping).sequence = s.engine.sequence ∧
        (farewell s.engine c.stopping).nextTransaction = s.engine.nextTransaction := by
      unfold farewell
      split <;> exact ⟨rfl, rfl⟩
    exact handed.quiet rfl rfl (congrArg _ rest.1) rest.2
  | _ => exact handed.quiet rfl rfl rfl rfl

theorem handed_proceeds {mayFail : Bool} (handed : s.Handed first firstId n m) (proceeds : Proceeds mayFail s t) :
    GoesOn first firstId n m s t := by
  cases proceeds with
  | usual step => exact handed_step handed step
  | drain running calls silent whole => exact handed.quiet rfl rfl (next_step _ _ _) rfl
  | late closing writing calls which whole => exact handed.quiet rfl rfl (next_step _ _ _) rfl
  | refuse closing joining gone may => exact handed.quiet rfl rfl rfl rfl

/-- What a run hands out is consecutive, and every one is where it belongs. -/
theorem handed_hands (handed : s.Handed first firstId 0 0) (run : Hands (Proceeds true) s lsns ids t) : ∃ n m,
    lsns = consecutive first n ∧ ids = consecutive firstId m ∧ t.Handed first firstId n m := by
  induction run with
  | here => exact ⟨0, 0, rfl, rfl, handed⟩
  | more run step ih =>
    obtain ⟨n, m, rfl, rfl, handed⟩ := ih
    obtain ⟨n', m', lsns, ids, handed⟩ := handed_proceeds handed step
    exact ⟨n', m', lsns.symm, ids.symm, handed⟩

/-- A record or a transaction takes a sequence number, and every transaction has its own. -/
theorem Hands.lengths {e : Engine} (run : Hands (Proceeds true) (start e) lsns ids s) :
    lsns.length ≤ s.added.length + s.stages.length ∧ ids.length = s.stages.length := by
  obtain ⟨n, m, rfl, rfl, handed⟩ := handed_hands (handed_start e) run
  have places := handed.places.length_eq
  have held := List.length_filterMap_le Stage.holds s.stages
  rw [List.length_append, List.length_map, length_consecutive] at places
  rw [length_consecutive, length_consecutive]
  exact ⟨by omega, handed.count.symm⟩

section Reopened

open Engine

variable {home dir : Path} {k : Nat} {old : Bytes} {e : Engine} {c : Config} {clock : Clock}
  {v made after : Volume}

/-- The first number that is handed out is the one behind the last in the log. -/
theorem resumed_lsns (resumed : e.Resumed home k old)
    (room : (recover old).2.lastLsn.toNat + n < 2 ^ 64) :
    consecutive e.sequence.next n = consecutive ((recover old).2.lastLsn + 1) n := by
  cases n with
  | zero => rfl
  | succ n =>
    have positive : (recover old).2.lastLsn + 1 ≠ 0 := by
      intro zero
      have nats := congrArg UInt64.toNat zero
      rw [UInt64.toNat_add, UInt64.toNat_one, UInt64.toNat_zero] at nats
      omega
    rw [resumed.sequence]
    exact congrArg (consecutive · (n + 1)) (if_neg positive)

/-- Whatever the log holds that an engine is opened on, in whatever order its transactions begin and
go on, and whichever calls on the log fail: the sequence numbers that it hands out are above every one in the
log, its transactions above every one recovered, and none comes twice, as long as they fit into 64 bits. Each
sequence number is in one record or held by one transaction. If no call failed, reading the log again, at any
moment, drops as repetitions only lines of the old log: behind an open last line the first new record is
damaged, and all others are kept. -/
theorem numbers_are_fresh (directory : makeDirectory c v = .ok (dir, made))
    (remains : Remains dir home k old made) (opened : openWith c clock v = (.ok e, after))
    (run : Hands (Proceeds true) (start e) lsns ids s)
    (lsnRoom : (recover old).2.lastLsn.toNat + lsns.length < 2 ^ 64)
    (idRoom : (recover old).2.lastTransaction.toNat + ids.length < 2 ^ 64) :
    (∀ r ∈ found old, ∀ lsn ∈ lsns, r.lsn < lsn) ∧
    (∀ r ∈ recovered old, ∀ id ∈ ids, r.transaction < id) ∧ lsns.Nodup ∧ ids.Nodup ∧
    (s.added.map Record.lsn ++ s.stages.filterMap Stage.holds).Perm lsns ∧
    (∀ r ∈ s.added, r.transaction ∈ ids) ∧
    (Hands (Proceeds false) (start e) lsns ids s →
      ∃ done, done <+: s.added ∧ (s.added.length ∈ s.closed → done = s.added) ∧
        let bytes := old ++ done.flatMap Record.line
        s.engine.store.disk.read s.engine.logPath = .ok bytes ∧
          Keeps (if done = [] then old else wholeLines old) (if Closed old then done else done.tail)
            bytes) := by
  have resumed := resumed_openWith directory remains opened
  obtain ⟨n, m, rfl, rfl, handed⟩ := handed_hands (handed_start e) run
  rw [length_consecutive] at lsnRoom idRoom
  have places := handed.places
  rw [resumed_lsns resumed lsnRoom] at places ⊢
  obtain ⟨lsnsAbove, lsnsOnce⟩ := consecutive_above lsnRoom
  obtain ⟨idsAbove, idsOnce⟩ := consecutive_above idRoom
  rw [← resumed.transaction] at idsAbove idsOnce
  refine ⟨fun r mem lsn given => ?_, fun r mem id given => ?_, lsnsOnce, idsOnce, places, handed.owned,
    fun unfailing => ?_⟩
  · exact UInt64.lt_of_le_of_lt (le_lastLsn mem) (lsnsAbove lsn given)
  · exact UInt64.lt_of_le_of_lt (le_lastTransaction mem) (idsAbove id given)
  · have start := standing_start resumed.layout resumed.waiting
    obtain ⟨done, parts, standing⟩ :=
      standing_runs start (unfailing.runs start)
    have front : done <+: s.added := by
      rw [standing.whole, List.append_assoc]
      exact List.prefix_append _ _
    have above : ∀ r ∈ done, (recover old).2.lastLsn < r.lsn := by
      intro r mem
      have given := List.mem_append_left (s.stages.filterMap Stage.holds)
        (List.mem_map_of_mem (f := Record.lsn) (front.subset mem))
      exact lsnsAbove _ (places.mem_iff.mp given)
    have distinct : (done.map Record.lsn).Nodup :=
      ((List.nodup_append.mp (places.nodup_iff.mpr lsnsOnce)).1).sublist (front.sublist.map _)
    refine ⟨done, front, fun last => ?_, standing.layout.read, keeps_behind above distinct⟩
    exact front.eq_of_length (Nat.le_antisymm front.length_le (standing.closed _ last))

/-- The log repeats a record, and then begins it again without an end to the line: of the two
repetitions one is left when a transaction has been written behind it. -/
theorem numbers_are_fresh_torn :
    let first := Record.numbered 1
    let old := first.line ++ first.line ++ first.text
    ∃ (after : Volume) (e : Engine) (s : Session) (lsns ids : List UInt64),
      openWith onePage (.still 5) (logOnly old) = (.ok e, after) ∧ Hands (Proceeds false) (start e) lsns ids s ∧
      s.added.length = 2 ∧ (∀ lsn ∈ lsns, 1 < lsn) ∧ (recover old).2.duplicateRecords = 2 ∧
      ∃ bytes, s.engine.store.disk.read s.engine.logPath = .ok bytes ∧
        recovered bytes = first :: s.added.tail ∧ (recover bytes).2.duplicateRecords = 1 := by
  intro first old
  have known : marks old = ⟨1, 1⟩ := by decide +kernel
  obtain ⟨after, e, s, directory, opened, run, two, last, room⟩ :=
    exists_inserted known (by decide +kernel)
  obtain ⟨lsns, ids, hands⟩ := run.hands
  obtain ⟨few, all⟩ := hands.may.lengths
  have lastLsn : (recover old).2.lastLsn.toNat = 1 := by decide +kernel
  have lastTransaction : (recover old).2.lastTransaction = 1 := by decide +kernel
  have roomLsns := room.lsns
  have roomIds := room.ids
  rw [known] at roomLsns roomIds
  have lsnRoom : (recover old).2.lastLsn.toNat + lsns.length < 2 ^ 64 := by
    rw [lastLsn]
    simp only at roomLsns
    omega
  have idRoom : (recover old).2.lastTransaction.toNat + ids.length < 2 ^ 64 := by
    rw [lastTransaction, all]
    exact roomIds
  obtain ⟨above, -, -, -, -, -, again⟩ :=
    numbers_are_fresh directory (remains_logOnly old) opened hands.may lsnRoom idRoom
  obtain ⟨done, -, whole, read, keeps⟩ := again hands
  obtain rfl := whole last
  have some : s.added ≠ [] := List.ne_nil_of_length_pos (two ▸ Nat.two_pos)
  have torn : ¬ Closed old := by decide +kernel
  rw [if_neg some, if_neg torn] at keeps
  have mem : first ∈ found old := by decide +kernel
  have kept : recovered (wholeLines old) = [first] := by decide +kernel
  have repeated : (recover (wholeLines old)).2.duplicateRecords = 1 := by decide +kernel
  refine ⟨after, e, s, lsns, ids, opened, hands, two, above first mem, by decide +kernel, _, read, ?_, ?_⟩
  · rw [keeps.kept, kept]
    rfl
  · rw [keeps.duplicates, repeated]

/-- A file whose bytes cannot be made durable. -/
def unsynced (h : Handle) : Sink Volume :=
  { Sink.ofHandle h with sync := fun v => (.error (.reported false "sync failed"), v) }

theorem falters_unsynced (h : Handle) : (unsynced h).Falters h where
  taken := (falters_ofHandle h).taken
  refused := (falters_ofHandle h).refused
  flush := (falters_ofHandle h).flush
  sync _ := rfl

/-- A drain of the background writer that writes its batch and cannot make it durable. -/
def drainUnsynced (s : Session) : Session :=
  ((s.background .swap).background .write (unsynced s.engine.writer.sink)).background .settle

theorem hands_drainUnsynced (running : s.engine.running = true) :
    ∃ lsns ids, Hands (Proceeds true) s lsns ids s.drainUnsynced := by
  let swapped := s.background .swap
  let written := swapped.background .write (unsynced s.engine.writer.sink)
  have still : swapped.engine.running = true := running
  have on : written.engine.running = true := running
  have silent : Log.Step.write.record? = none := rfl
  have first : Proceeds true s swapped := .usual (.drain running rfl)
  have second : Proceeds true swapped written := .drain still (falters_unsynced _) silent (.inl rfl)
  have third : Proceeds true written s.drainUnsynced := .usual (.drain on rfl)
  exact ⟨_, _, ((Hands.here.more first).more second).more third⟩

/-- The batch is put back, and written again when the engine is closed. So the lines of the session stand in the
log twice and are counted as repetitions, though nothing stood in the log that was opened. -/
theorem retried_batch_repeated :
    ∃ (after : Volume) (e : Engine) (s : Session) (lsns ids : List UInt64),
      openWith onePage (.still 5) (logOnly []) = (.ok e, after) ∧ Hands (Proceeds true) (start e) lsns ids s ∧
      s.added.length ∈ s.closed ∧ s.added.length = 2 ∧
      ∃ bytes, s.engine.store.disk.read s.engine.logPath = .ok bytes ∧
        bytes = (s.added ++ s.added).flatMap Record.line ∧ recovered bytes = s.added ∧
        (recover bytes).2.duplicateRecords = 2 := by
  have computed : ((openWith onePage (.still 5) (logOnly [])).1.map fun e =>
      let added := (inserted e).buffer.records
      let retried := (start (inserted e)).drainUnsynced
      let bytes := (added ++ added).flatMap Record.line
      ((e.buffer.records.length, (inserted e).running, added.length, retried.hand,
          retried.engine.close.1.isOk),
        retried.engine.close.2.store.disk.read retried.engine.close.2.logPath == .ok bytes,
        recovered bytes == added, (recover bytes).2.duplicateRecords)).toOption =
      some ((0, true, 2, .empty, true), true, true, 2) := by
    decide +kernel
  rcases opened : openWith onePage (.still 5) (logOnly []) with ⟨fault | e, after⟩
  · rw [opened] at computed
    cases computed
  · rw [opened] at computed
    have facts := Option.some.inj computed
    simp only [Prod.mk.injEq, beq_iff_eq] at facts
    obtain ⟨⟨none, running, two, free, closes⟩, read, kept, repeated⟩ := facts
    have nothing : e.buffer.records = [] := List.length_eq_zero_iff.mp none
    let executed : Session := { start e with
      engine := inserted e
      stages := [.ended]
      added := (inserted e).buffer.records }
    obtain ⟨lsns, ids, first⟩ := (runs_inserted nothing).hands
    obtain ⟨lsns', ids', second⟩ := hands_drainUnsynced (s := executed) running
    have closed := runs_close (s := executed.drainUnsynced) rfl free
    have returned : executed.drainUnsynced.engine.close.1.isOk = true := closes
    rw [if_pos returned] at closed
    obtain ⟨lsns'', ids'', third⟩ := closed.hands
    exact ⟨after, e, _, _, _, rfl, (first.may.trans second).trans third.may, List.mem_singleton_self _,
      two, _, read, rfl, kept, repeated⟩

end Reopened

end Session

end PageJournal
