import PageJournal.Proofs.Engine.Turns
import PageJournal.Proofs.Lists

/-! How a workload spends its budget. Every unit of it is left, claimed by a worker, or counted, and
every transaction that was counted is under way, committed or abandoned. What was committed is read off the
turns that did it: the record that they added and the counters that they moved. -/
namespace PageJournal

/-- It has claimed a transaction and not counted it yet. -/
def Worker.claimed (worker : Worker) : Bool := worker.stage = .counting

/-- It has counted a transaction that has not ended. -/
def Worker.busy (worker : Worker) : Bool :=
  match worker.stage with
  | .submitting | .applying _ | .committing _ => true
  | _ => false

/-- How many turns it has left at most, until it stops or claims again. -/
def Worker.turns (worker : Worker) : Nat :=
  match worker.stage with
  | .counting => 7
  | .submitting => 6
  | .applying _ => 5
  | .committing _ => 4
  | .pausing => 3
  | .checking => 2
  | .claiming => 1
  | .stopped => 0

theorem claim?_of_pos {budget : UInt64} (some : budget ≠ 0) :
    ∃ left, claim? budget = .some left ∧ left.toNat + 1 = budget.toNat := by
  refine ⟨budget - 1, if_neg some, ?_⟩
  have pos : budget.toNat ≠ 0 := by
    intro zero
    exact some (UInt64.toNat_inj.mp zero)
  have one : (1 : UInt64) ≤ budget := by
    simp only [UInt64.le_iff_toNat_le, UInt64.toNat_one]
    omega
  simp only [UInt64.toNat_sub_of_le _ _ one, UInt64.toNat_one]
  omega

namespace Workload

/-- What a step of a worker does to the accounts. -/
structure Accounts (w : Workload) (worker : Worker) (left : UInt64)
    (result : Option (Except Fault Transaction)) (next : Worker) (after : Workload)
    (rest : UInt64) : Prop where
  budget : after.budget = some rest
  whole : after.attempted.toNat + next.claimed.toNat + rest.toNat =
    w.attempted.toNat + worker.claimed.toNat + left.toNat
  ended : result.toList.length + next.busy.toNat + w.attempted.toNat =
    worker.busy.toNat + after.attempted.toNat
  stops : next.stage = .stopped →
    worker.stage = .stopped ∨ w.engine.stop.requested = true ∨ rest = 0
  goesOn : worker.stage ≠ .stopped →
    next.turns + 7 * rest.toNat < worker.turns + 7 * left.toNat
  less : rest ≤ left

theorem accounts_step (w : Workload) (worker : Worker) (trouble : Trouble) {left : UInt64}
    (budget : w.budget = some left)
    (room : w.attempted.toNat + worker.claimed.toNat + left.toNat < UInt64.size) :
    ∃ rest, w.Accounts worker left (w.step worker trouble).1 (w.step worker trouble).2.1
      (w.step worker trouble).2.2 rest := by
  obtain ⟨thread, generator, stage⟩ := worker
  cases stage with
  | checking =>
    refine ⟨left, ?_⟩
    cases asked : w.engine.stop.requested <;>
      constructor <;> simp [step, Worker.claimed, Worker.busy, Worker.turns, asked, budget]
  | claiming =>
    by_cases spent : left = 0
    · refine ⟨left, ?_⟩
      constructor <;>
        simp [step, claim?, spent, Worker.claimed, Worker.busy, Worker.turns, budget]
    · obtain ⟨rest, claimed, less⟩ := claim?_of_pos spent
      have le : rest ≤ left := by
        simp only [UInt64.le_iff_toNat_le]
        omega
      refine ⟨rest, ?_⟩
      constructor <;>
        simp [step, claimed, Worker.claimed, Worker.busy, Worker.turns, budget, le] <;> omega
  | counting =>
    have one : (w.attempted + 1).toNat = w.attempted.toNat + 1 := by
      simp only [Worker.claimed, decide_true, Bool.toNat_true, UInt64.size] at room
      simp only [UInt64.toNat_add, UInt64.toNat_one]
      omega
    refine ⟨left, ?_⟩
    constructor <;> simp [step, Worker.claimed, Worker.busy, Worker.turns, budget, one]
    omega
  | submitting =>
    refine ⟨left, ?_⟩
    constructor <;> simp [step, Worker.claimed, Worker.busy, Worker.turns, budget]
  | applying t =>
    refine ⟨left, ?_⟩
    rcases applied : w.engine.apply t trouble with ⟨fault | ⟨⟩, engine⟩ <;> constructor <;>
      simp [step, applied, Worker.claimed, Worker.busy, Worker.turns, budget]
  | committing t =>
    refine ⟨left, ?_⟩
    constructor <;> simp [step, Worker.claimed, Worker.busy, Worker.turns, budget]
  | pausing =>
    refine ⟨left, ?_⟩
    cases asked : w.engine.stop.requested <;>
    by_cases delay : w.engine.config.transactionDelay = 0 <;>
      constructor <;>
      simp [step, StopSignal.wait, Worker.claimed, Worker.busy, Worker.turns, asked, delay, budget]
  | stopped =>
    refine ⟨left, ?_⟩
    constructor <;> simp [step, Worker.claimed, Worker.busy, Worker.turns, budget]

/-- Where the units of a budget are after so many transactions have ended. -/
structure Accounted (budget : UInt64) (count : Nat) (w : Workload) (ended : Nat) : Prop where
  workers : w.workers.length = count
  whole : ∃ left, w.budget = some left ∧
    w.attempted.toNat + w.workers.countP Worker.claimed + left.toNat = budget.toNat
  ended : ended + w.workers.countP Worker.busy = w.attempted.toNat
  spent : (∃ worker ∈ w.workers, worker.stage = .stopped) →
    w.engine.stop.requested = true ∨ w.budget = some 0

theorem accounted_start (e : Engine) (budget : UInt64) :
    Accounted budget e.config.transactionWorkers (start e (some budget)) 0 := by
  constructor <;> simp [start, worker, Worker.claimed, Worker.busy, List.countP_eq_zero]

variable {budget : UInt64} {count ended : Nat} {w after : Workload}
  {result : Option (Except Fault Transaction)}

theorem Accounted.room (accounted : Accounted budget count w ended) {place : Nat} {worker : Worker}
    (there : w.workers[place]? = some worker) {left : UInt64} (own : w.budget = some left) :
    w.attempted.toNat + worker.claimed.toNat + left.toNat < UInt64.size := by
  obtain ⟨rest, same, whole⟩ := accounted.whole
  cases own.symm.trans same
  have one : worker.claimed.toNat ≤ w.workers.countP Worker.claimed := by
    obtain ⟨front, back, split⟩ := List.append_of_mem (List.mem_of_getElem? there)
    simp only [split, countP_split]
    omega
  have bound := budget.toNat_lt_size
  omega

theorem Accounted.step (accounted : Accounted budget count w ended) {place : Nat} {worker : Worker}
    (there : w.workers[place]? = some worker) (trouble : Trouble) {next : Worker}
    (stepped : w.step worker trouble = (result, next, after)) :
    Accounted budget count { after with workers := w.workers.set place next }
      (ended + result.toList.length) := by
  obtain ⟨left, own, whole⟩ := accounted.whole
  obtain ⟨inside, here⟩ := List.getElem?_eq_some_iff.mp there
  -- of the sums over all workers only the share of this one changes
  obtain ⟨front, back, split, -, set⟩ := @List.exists_of_set _ place next _ inside
  have ending := accounted.ended
  simp only [here] at split
  simp only [split, countP_split] at whole ending
  obtain ⟨rest, step⟩ := accounts_step w worker trouble own (accounted.room there own)
  simp only [stepped] at step
  have now := step.whole
  have done := step.ended
  have stop := stop_step w worker trouble
  simp only [stepped] at stop
  constructor
  case workers => simpa using accounted.workers
  case whole =>
    refine ⟨rest, step.budget, ?_⟩
    simp only [set, countP_split]
    omega
  case ended =>
    simp only [set, countP_split]
    omega
  case spent =>
    -- a budget that was spent before is spent still
    have before : (∃ worker ∈ w.workers, worker.stage = .stopped) →
        w.engine.stop.requested = true ∨ rest = 0 := by
      intro one
      refine (accounted.spent one).imp_right fun spent => ?_
      have none : left = 0 := Option.some.inj (own.symm.trans spent)
      simpa [none] using step.less
    rintro ⟨other, mem, stopped⟩
    simp only [stop, step.budget, Option.some.injEq]
    obtain old | rfl := List.mem_or_eq_of_mem_set mem
    · exact before ⟨other, old, stopped⟩
    · obtain already | new := step.stops stopped
      · exact before ⟨worker, by simp [split], already⟩
      · exact new

theorem Accounted.turn (accounted : Accounted budget count w ended) (place : Nat)
    (trouble : Trouble) : Accounted budget count (w.turn place trouble).2
      (ended + (w.turn place trouble).1.toList.length) := by
  unfold Workload.turn
  cases there : w.workers[place]? with
  | none => simpa using accounted
  | some worker => exact accounted.step there trouble rfl

theorem Accounted.move (accounted : Accounted budget count w ended) {last : Option Turned}
    (move : Move w last after) :
    Accounted budget count after (ended + (last.bind Turned.result).toList.length) := by
  cases move with
  | turn place trouble => exact accounted.turn place trouble
  | outside engine asked =>
    constructor
    case workers => exact accounted.workers
    case whole => exact accounted.whole
    case ended => exact accounted.ended
    case spent => exact fun one => (accounted.spent one).imp_left asked

theorem Run.accounted {first : Workload} {turns : List Turned} (run : Run first turns w)
    (accounted : Accounted budget count first ended) :
    Accounted budget count w (ended + (turns.filterMap Turned.result).length) := by
  induction run with
  | here => exact accounted
  | @more turns last w after run move ih =>
    have one : (last.toList.filterMap Turned.result).length = (last.bind Turned.result).toList.length := by
      rcases last with _ | ⟨before, _ | result, after⟩ <;> rfl
    rw [List.filterMap_append, List.length_append, one, ← Nat.add_assoc]
    exact ih.move move

/-- All workers have come to their end. -/
def Over (w : Workload) : Prop := ∀ worker ∈ w.workers, worker.stage = .stopped

theorem Over.countP_eq_zero (stopped : w.Over) {p : Worker → Bool}
    (idle : ∀ worker : Worker, worker.stage = .stopped → p worker = false) :
    w.workers.countP p = 0 := by
  simp only [List.countP_eq_zero]
  intro worker mem
  simp [idle worker (stopped worker mem)]

theorem Accounted.finished (accounted : Accounted budget count w ended) (stopped : w.Over) :
    ended = w.attempted.toNat ∧
      (count ≠ 0 → w.engine.stop.requested = false → w.attempted = budget) := by
  have noClaim := stopped.countP_eq_zero (p := Worker.claimed) (by simp +contextual [Worker.claimed])
  have idle := stopped.countP_eq_zero (p := Worker.busy) (by simp +contextual [Worker.busy])
  have ending := accounted.ended
  constructor
  · omega
  · intro nonzero notAsked
    obtain ⟨left, own, whole⟩ := accounted.whole
    have nonempty : w.workers ≠ [] := by
      intro empty
      exact nonzero (by simp [← accounted.workers, empty])
    obtain ⟨worker, mem⟩ := List.exists_mem_of_ne_nil _ nonempty
    have spent := (accounted.spent ⟨worker, mem, stopped worker mem⟩).resolve_left (by simp [notAsked])
    have zero : left = 0 := Option.some.inj (own.symm.trans spent)
    simp only [noClaim, zero, UInt64.toNat_zero, Nat.add_zero] at whole
    exact UInt64.toNat_inj.mp whole

/-- A worker that has the workload to itself stops. -/
theorem hasStopped_advanceUntil {place limit : Nat} {worker : Worker} {left : UInt64}
    (accounted : Accounted budget count w ended) (there : w.workers[place]? = some worker)
    (own : w.budget = some left) (enough : worker.turns + 7 * left.toNat ≤ limit) :
    hasStopped place (w.advanceUntil (hasStopped place) place limit) = true := by
  -- every turn lowers `worker.turns + 7 * left`, so it is no more than the turns that remain
  induction limit generalizing w worker left ended with
  | zero =>
    have none : worker.turns = 0 := by omega
    have stopped : worker.stage = .stopped := by
      unfold Worker.turns at none
      split at none <;> simp_all
    simp [advanceUntil, hasStopped, there, stopped]
  | succ limit ih =>
    unfold advanceUntil
    split
    · next stopped => exact stopped
    · next going =>
      have stage : worker.stage ≠ .stopped := by
        simpa [hasStopped, there] using going
      have inside := (List.getElem?_eq_some_iff.mp there).1
      obtain ⟨rest, step⟩ := accounts_step w worker .none own (accounted.room there own)
      have less := step.goesOn stage
      have next : (w.advance place).workers[place]? = some (w.step worker).2.1 := by
        simp only [advance, turn, there, List.getElem?_set_self inside]
      have left : (w.advance place).budget = some rest := by
        simp [advance, turn, there, step.budget]
      exact ih (accounted.turn place .none) next left (by omega)

theorem Accounted.stops (accounted : Accounted budget count w ended) {place limit : Nat}
    (inside : place < count) (enough : 7 * budget.toNat + 7 ≤ limit) :
    hasStopped place (w.advanceUntil (hasStopped place) place limit) = true := by
  obtain ⟨left, own, whole⟩ := accounted.whole
  have workers := accounted.workers
  have there : w.workers[place]? = some w.workers[place] := List.getElem?_eq_getElem (by omega)
  have most : w.workers[place].turns ≤ 7 := by
    unfold Worker.turns
    split <;> omega
  exact hasStopped_advanceUntil accounted there own (by omega)

/-- One after another, all workers stop. -/
theorem finish_stops (accounted : Accounted budget count w ended) {limit : Nat}
    (enough : 7 * budget.toNat + 7 ≤ limit) :
    (∃ turns, Run w turns (w.finish limit)) ∧
      (∀ place < count, hasStopped place (w.finish limit) = true) ∧
      (w.finish limit).engine.stop = w.engine.stop := by
  have first : ∀ n ≤ count, ∃ after, (List.range n).foldl
      (fun w place => w.advanceUntil (hasStopped place) place limit) w = after ∧
      (∃ turns, Run w turns after) ∧ (∀ place < n, hasStopped place after = true) ∧
      after.engine.stop = w.engine.stop := by
    intro n
    induction n with
    | zero => exact fun _ => ⟨w, rfl, ⟨[], .here⟩, nofun, rfl⟩
    | succ n ih =>
      intro le
      obtain ⟨mid, done, ⟨turns, run⟩, stopped, stop⟩ := ih (by omega)
      have last := (run.accounted accounted).stops (Nat.lt_of_succ_le le) enough
      -- the workers before it have stopped, and its turns leave them alone
      have alone := alone_advanceUntil (hasStopped n) n limit mid
      obtain ⟨later, more⟩ := alone.run
      refine ⟨_, by simp [List.range_succ, done], ⟨_, run.trans more⟩, ?_, alone.stop.trans stop⟩
      intro place below
      by_cases here : place = n
      · exact here ▸ last
      · exact (alone.hasStopped here).trans (stopped place (by omega))
  obtain ⟨after, done, run, stopped, stop⟩ := first count (Nat.le_refl _)
  unfold finish
  simp only [accounted.workers, done]
  exact ⟨run, stopped, stop⟩

theorem spend_over (e : Engine) (budget : UInt64) :
    (∃ turns, Run (start e (some budget)) turns (spend e budget)) ∧ (spend e budget).Over ∧
      (spend e budget).engine.stop = e.stop := by
  obtain ⟨⟨turns, run⟩, stopped, stop⟩ :=
    finish_stops (accounted_start e budget) (Nat.le_refl (7 * budget.toNat + 7))
  refine ⟨⟨turns, run⟩, fun worker mem => ?_, stop⟩
  obtain ⟨place, inside, there⟩ := List.mem_iff_getElem.mp mem
  have count := (run.accounted (accounted_start e budget)).workers
  have alone := stopped place (by unfold spend at inside; omega)
  unfold spend at there inside
  simpa [hasStopped, inside, there] using alone

/-- Workers that have the engine to themselves attempt as much as the budget allows. -/
theorem attempted_spend {e : Engine} (workers : e.config.transactionWorkers ≠ 0)
    (notAsked : e.stop.requested = false) (budget : UInt64) :
    (spend e budget).attempted = budget := by
  obtain ⟨⟨turns, run⟩, finished, stop⟩ := spend_over e budget
  have accounted := run.accounted (accounted_start e budget)
  exact (accounted.finished finished).2 workers (by simp [stop, notAsked])

/-- However the workers' turns are interleaved and whenever a stop is asked for, every unit of the
budget is left, claimed or counted, and the turns have moved the counter of transactions once for each that they
committed and the counter of errors once for each that they abandoned. When all workers are at their end, these
are as many as were counted, and the budget is spent unless a stop was asked for. -/
theorem budget_spent_exactly {e : Engine} (workers : e.config.transactionWorkers ≠ 0)
    {budget : UInt64} {turns : List Turned} {w : Workload} (run : Run (start e (some budget)) turns w) :
    (∃ left, w.budget = some left ∧ left ≤ budget ∧
      w.attempted.toNat + w.workers.countP Worker.claimed + left.toNat = budget.toNat) ∧
    w.attempted ≤ budget ∧
    (turns.map (·.ticks .transactions)).sum = UInt64.ofNat (turns.countP Turned.commits) ∧
    (turns.map (·.ticks .errors)).sum = UInt64.ofNat (turns.countP Turned.abandons) ∧
    (w.Over → (w.engine.stop.requested = false → w.attempted = budget) ∧
      turns.countP Turned.commits + turns.countP Turned.abandons = w.attempted.toNat) := by
  have accounted := run.accounted (accounted_start e budget)
  have tells := run.tells
  obtain ⟨left, own, whole⟩ := accounted.whole
  refine ⟨⟨left, own, ?_, whole⟩, ?_, sum_eq_countP fun x mem => (tells x mem).transactions,
    sum_eq_countP fun x mem => (tells x mem).errors, fun finished => ?_⟩
  · simp only [UInt64.le_iff_toNat_le]
    omega
  · simp only [UInt64.le_iff_toNat_le]
    omega
  · obtain ⟨ended, spent⟩ := accounted.finished finished
    refine ⟨spent workers, ?_⟩
    rw [← length_results tells, ← ended, Nat.zero_add]

/-- Three transactions for two workers. -/
theorem budget_spent_by_two : ∃ (e : Engine) (turns : List Turned),
    e.config.transactionWorkers = 2 ∧ Run (start e (some 3)) turns (spend e 3) ∧
      (spend e 3).Over ∧ (spend e 3).attempted = 3 ∧
      turns.countP Turned.commits + turns.countP Turned.abandons = 3 := by
  let c : Config := { transactionWorkers := 2 }
  have computed : (Engine.openWith c (.still 5) .empty).1.toOption.map (fun e =>
      (e.config.transactionWorkers, e.stop.requested)) = some (2, false) := by
    decide +kernel
  obtain ⟨e, -, here⟩ := Option.map_eq_some_iff.mp computed
  obtain ⟨two, notAsked⟩ := Prod.mk.inj here
  obtain ⟨⟨turns, run⟩, finished, stop⟩ := spend_over e 3
  have workers : e.config.transactionWorkers ≠ 0 := by simp [two]
  obtain ⟨-, -, -, -, ending⟩ := budget_spent_exactly workers run
  obtain ⟨spent, ended⟩ := ending finished
  have three := spent (by simp [stop, notAsked])
  exact ⟨e, turns, two, run, finished, three, by simpa [three] using ended⟩

end Workload

end PageJournal
