import PageJournal.Engine.Workload
import PageJournal.Proofs.Engine.Deeds
import PageJournal.Proofs.Lists

/-! The turns of workers. They may be interleaved in any way, and between two of them anything may go on
in the engine. What a turn has committed or abandoned is read off the record that it added and the counters that
it moved. A submission that nothing interrupts is the engine's own execution of a transaction. -/
namespace PageJournal

namespace Engine

variable (e : Engine) (t : Transaction)

@[simp] theorem stop_generate (g : Generator) (thread : UInt32) :
    (e.generate g thread).2.2.stop = e.stop := rfl

@[simp] theorem stop_log (lsn : UInt64) : (e.log t lsn).stop = e.stop := rfl

@[simp] theorem stop_apply (trouble : Trouble) : (e.apply t trouble).2.stop = e.stop := rfl

@[simp] theorem stop_abandon (fault : Fault) : (e.abandon t fault).stop = e.stop := rfl

@[simp] theorem stop_commit : (e.commit t).2.stop = e.stop := rfl

end Engine

namespace Workload

theorem stop_step (w : Workload) (worker : Worker) (trouble : Trouble) :
    (w.step worker trouble).2.2.engine.stop = w.engine.stop := by
  obtain ⟨thread, generator, stage⟩ := worker
  cases stage with
  | claiming =>
    cases budget : w.budget with
    | none => simp [step, budget]
    | some left => cases claimed : claim? left <;> simp [step, budget, claimed]
  | applying t =>
    have stop := Engine.stop_apply w.engine t trouble
    rcases applied : w.engine.apply t trouble with ⟨fault | ⟨⟩, engine⟩ <;>
      simp only [applied] at stop <;> simp [step, applied, stop]
  | checking | counting | submitting | committing t | pausing | stopped => simp [step]

/-- A turn that was taken: the engine before it and after it, and the result if a transaction ended with it. -/
structure Turned where
  before : Engine
  result : Option (Except Fault Transaction)
  after : Engine

/-- The turn of the worker at a place. -/
def turned (w : Workload) (place : Nat) (trouble : Trouble) : Turned :=
  ⟨w.engine, (w.turn place trouble).1, (w.turn place trouble).2.engine⟩

/-- What can happen to a workload: a worker takes its turn, or something else goes on in the engine,
which may ask for a stop and takes no such request back. -/
inductive Move (w : Workload) : Option Turned → Workload → Prop
  | turn (place : Nat) (trouble : Trouble) :
    Move w (some (w.turned place trouble)) (w.turn place trouble).2
  | outside (engine : Engine)
    (asked : w.engine.stop.requested = true → engine.stop.requested = true) :
    Move w none { w with engine }

/-- Any moves one after another, with the turns among them. -/
inductive Run (first : Workload) : List Turned → Workload → Prop
  | here : Run first [] first
  | more {turns : List Turned} {last : Option Turned} {w after : Workload} (run : Run first turns w)
    (move : Move w last after) : Run first (turns ++ last.toList) after

variable {w after : Workload}

theorem Run.trans {first : Workload} {turns later : List Turned}
    (run : Run first turns w) (rest : Run w later after) : Run first (turns ++ later) after := by
  induction rest with
  | here => simpa using run
  | more _ move ih => simpa using ih.more move

/-- The worker at a place and the engine have gone on. -/
def having (w : Workload) (place : Nat) (worker : Worker) (engine : Engine) : Workload :=
  { w with engine, workers := w.workers.set place worker }

theorem getElem?_having {place : Nat} (inside : place < w.workers.length) (worker : Worker)
    (engine : Engine) : (w.having place worker engine).workers[place]? = some worker := by
  simp [having, inside]

section Outcomes

namespace Turned

/-- How far it moved a counter. -/
def ticks (x : Turned) (c : Counter) : UInt64 :=
  x.after.store.counters.get c - x.before.store.counters.get c

/-- It committed a transaction: the record that says so was added, and the transaction was counted. -/
def commits (x : Turned) : Bool :=
  match x.result with
  | some (.ok t) =>
    t.committed && x.ticks .transactions = 1 && x.ticks .errors = 0 &&
      x.after.buffer.records = x.before.buffer.records ++ [t.record x.before.sequence.next x.before.now.1]
  | _ => false

/-- It abandoned one: an error was counted, and no record added. -/
def abandons (x : Turned) : Bool :=
  match x.result with
  | some (.error _) =>
    x.ticks .errors = 1 && x.ticks .transactions = 0 && x.after.buffer.records = x.before.buffer.records
  | _ => false

/-- A transaction that ended with the turn was committed or abandoned by it, and nothing else moves the two
counters. -/
structure Tells (x : Turned) : Prop where
  commits : x.commits = x.result.any (·.isOk)
  abandons : x.abandons = x.result.any (!·.isOk)
  transactions : x.ticks .transactions = if x.commits then 1 else 0
  errors : x.ticks .errors = if x.abandons then 1 else 0

variable {x : Turned} {c : Counter}

theorem ticks_of_same (same : x.after.store.counters.get c = x.before.store.counters.get c) :
    x.ticks c = 0 := by
  rw [ticks, same, UInt64.sub_self]

theorem ticks_of_succ (once : x.after.store.counters.get c = x.before.store.counters.get c + 1) :
    x.ticks c = 1 := by
  rw [ticks, once, UInt64.add_comm, UInt64.add_sub_cancel]

theorem tells_of_none (none : x.result = none)
    (transactions : x.after.store.counters.get .transactions = x.before.store.counters.get .transactions)
    (errors : x.after.store.counters.get .errors = x.before.store.counters.get .errors) : x.Tells := by
  obtain ⟨before, result, after⟩ := x
  cases none
  exact ⟨rfl, rfl, ticks_of_same transactions, ticks_of_same errors⟩

/-- The operation of a transaction moves neither counter. -/
theorem get_apply (e : Engine) (t : Transaction) (trouble : Trouble)
    (own : c = .transactions ∨ c = .errors) :
    (e.apply t trouble).2.store.counters.get c = e.store.counters.get c := by
  rw [e.apply_counters, Counters.get_tickAll, Engine.Deed.count_operated, count_lookedUp]
  rcases own with rfl | rfl
  all_goals simp

theorem tells_of_committed {t : Transaction} (done : x.result = some (.ok t)) (marked : t.committed = true)
    (counted : x.after.store.counters = x.before.store.counters.tick .transactions)
    (recorded : x.after.buffer.records =
      x.before.buffer.records ++ [t.record x.before.sequence.next x.before.now.1]) : x.Tells := by
  obtain ⟨before, result, after⟩ := x
  cases done
  let x : Turned := ⟨before, some (.ok t), after⟩
  have once : x.ticks .transactions = 1 := by
    refine ticks_of_succ ?_
    rw [counted, Counters.get_tick, if_pos rfl]
  have never : x.ticks .errors = 0 := by
    refine ticks_of_same ?_
    rw [counted, Counters.get_tick, if_neg nofun]
  have commits : x.commits = true := by
    simp only [Turned.commits, x] at once never recorded ⊢
    simp [once, never, recorded, marked]
  exact ⟨commits, rfl, once.trans (if_pos commits).symm, never⟩

theorem tells_of_abandoned {fault : Fault} (done : x.result = some (.error fault))
    (transactions : x.after.store.counters.get .transactions = x.before.store.counters.get .transactions)
    (errors : x.after.store.counters.get .errors = x.before.store.counters.get .errors + 1)
    (recorded : x.after.buffer.records = x.before.buffer.records) : x.Tells := by
  obtain ⟨before, result, after⟩ := x
  cases done
  let x : Turned := ⟨before, some (.error fault), after⟩
  have once : x.ticks .errors = 1 := ticks_of_succ errors
  have never : x.ticks .transactions = 0 := ticks_of_same transactions
  have abandons : x.abandons = true := by
    simp only [Turned.abandons, x] at once never recorded ⊢
    simp [once, never, recorded]
  exact ⟨rfl, abandons, never, once.trans (if_pos abandons).symm⟩

theorem tells_abandon {e after : Engine} {t : Transaction} {trouble : Trouble} {fault : Fault}
    (applied : e.apply t trouble = (.error fault, after)) :
    Tells ⟨e, some (.error fault), after.abandon t fault⟩ := by
  obtain rfl : after = (e.apply t trouble).2 := (congrArg Prod.snd applied).symm
  have counters : ((e.apply t trouble).2.abandon t fault).store.counters =
      (e.apply t trouble).2.store.counters.tick .errors := rfl
  refine tells_of_abandoned rfl ?_ ?_ rfl
  · rw [counters, Counters.get_tick, if_neg nofun, get_apply e t trouble (.inl rfl)]
  · rw [counters, Counters.get_tick, if_pos rfl, get_apply e t trouble (.inr rfl)]

end Turned

/-- The turn of a worker is its step. -/
theorem turned_of {w : Workload} {place : Nat} {worker : Worker} (there : w.workers[place]? = some worker)
    (trouble : Trouble) : w.turned place trouble =
      ⟨w.engine, (w.step worker trouble).1, (w.step worker trouble).2.2.engine⟩ := by
  simp only [turned, turn, there]

theorem tells_turned (w : Workload) (place : Nat) (trouble : Trouble) : (w.turned place trouble).Tells := by
  cases there : w.workers[place]? with
  | none =>
    simp only [turned, turn, there]
    exact Turned.tells_of_none rfl rfl rfl
  | some worker =>
    rw [turned_of there]
    obtain ⟨thread, generator, stage⟩ := worker
    cases stage with
    | checking | counting | pausing | stopped => exact Turned.tells_of_none rfl rfl rfl
    | claiming =>
      simp only [step]
      cases w.budget with
      | none => exact Turned.tells_of_none rfl rfl rfl
      | some left =>
        simp only
        cases claim? left <;> exact Turned.tells_of_none rfl rfl rfl
    | submitting => exact Turned.tells_of_none rfl rfl rfl
    | applying t =>
      simp only [step]
      rcases applied : w.engine.apply t trouble with ⟨fault | ⟨⟩, after⟩
      · exact Turned.tells_abandon applied
      · obtain rfl : after = (w.engine.apply t trouble).2 := (congrArg Prod.snd applied).symm
        exact Turned.tells_of_none rfl (Turned.get_apply _ _ _ (.inl rfl))
          (Turned.get_apply _ _ _ (.inr rfl))
    | committing t =>
      exact Turned.tells_of_committed rfl rfl rfl (Log.Buffer.records_add _ _)

theorem Run.tells {first : Workload} {turns : List Turned} (run : Run first turns w) :
    ∀ x ∈ turns, x.Tells := by
  induction run with
  | here => exact fun x none => absurd none List.not_mem_nil
  | more run move ih =>
    intro x mem
    rcases List.mem_append.mp mem with old | new
    · exact ih x old
    · cases move with
      | turn place trouble => exact List.mem_singleton.mp new ▸ tells_turned _ place trouble
      | outside engine asked => exact absurd new List.not_mem_nil

/-- Every transaction that ended was committed or abandoned. -/
theorem length_results {turns : List Turned} (tells : ∀ x ∈ turns, x.Tells) :
    (turns.filterMap Turned.result).length =
      turns.countP Turned.commits + turns.countP Turned.abandons := by
  induction turns with
  | nil => rfl
  | cons x rest ih =>
    have own := tells x List.mem_cons_self
    have later := ih fun y mem => tells y (List.mem_cons_of_mem x mem)
    rw [List.countP_cons, List.countP_cons, own.commits, own.abandons, List.filterMap_cons]
    rcases x.result with _ | fault | t
    · exact later
    · exact congrArg (· + 1) later
    · refine (congrArg (· + 1) later).trans ?_
      simp only [Option.any, Except.isOk, Except.toBool, if_true, Bool.not_true, Bool.false_eq_true, if_false]
      omega

end Outcomes

section Submission

variable {place : Nat} {worker : Worker} {t : Transaction} {e : Engine} {trouble : Trouble}

theorem move_intend (there : w.workers[place]? = some worker) (stage : worker.stage = .submitting)
    {generator : Generator}
    (generated : w.engine.generate worker.generator worker.thread = (t, generator, e)) :
    Move w (some ⟨w.engine, none, e.log t t.lsn⟩)
      (w.having place { worker with stage := .applying t, generator } (e.log t t.lsn)) := by
  have move := Move.turn (w := w) place .none
  simpa [turned, turn, there, step, stage, generated, having] using move

theorem move_abandon (there : w.workers[place]? = some worker) (stage : worker.stage = .applying t)
    {fault : Fault} (applied : w.engine.apply t trouble = (.error fault, e)) :
    Move w (some ⟨w.engine, some (.error fault), e.abandon t fault⟩)
      (w.having place { worker with stage := .pausing } (e.abandon t fault)) := by
  have move := Move.turn (w := w) place trouble
  simpa [turned, turn, there, step, stage, applied, having] using move

theorem move_apply (there : w.workers[place]? = some worker) (stage : worker.stage = .applying t)
    (applied : w.engine.apply t trouble = (.ok (), e)) :
    Move w (some ⟨w.engine, none, e⟩) (w.having place { worker with stage := .committing t } e) := by
  have move := Move.turn (w := w) place trouble
  simpa [turned, turn, there, step, stage, applied, having] using move

theorem move_commit (there : w.workers[place]? = some worker)
    (stage : worker.stage = .committing t) :
    Move w (some ⟨w.engine, some (.ok (w.engine.commit t).1), (w.engine.commit t).2⟩)
      (w.having place { worker with stage := .pausing } (w.engine.commit t).2) := by
  have move := Move.turn (w := w) place .none
  simpa [turned, turn, there, step, stage, having] using move

/-- A submission that nothing interrupts is the engine's own generation and execution. -/
theorem run_submission (there : w.workers[place]? = some worker)
    (stage : worker.stage = .submitting) {generator : Generator}
    (generated : w.engine.generate worker.generator worker.thread = (t, generator, e))
    (trouble : Trouble) :
    ∃ turns after, Run w turns after ∧ turns.filterMap Turned.result = [(e.execute t trouble).1] ∧
      after.engine = (e.execute t trouble).2 := by
  have inside := (List.getElem?_eq_some_iff.mp there).1
  let first := w.having place { worker with stage := .applying t, generator } (e.log t t.lsn)
  have intended : Run w [⟨w.engine, none, e.log t t.lsn⟩] first :=
    Run.more .here (move_intend there stage generated)
  have applying := getElem?_having inside { worker with stage := .applying t, generator }
    (e.log t t.lsn)
  have still : place < first.workers.length := by simpa [first, having] using inside
  unfold Engine.execute
  rcases applied : (e.log t t.lsn).apply t trouble with ⟨fault | ⟨⟩, engine⟩
  · exact ⟨_, _, intended.more (move_abandon applying rfl applied), rfl, rfl⟩
  · have committing := getElem?_having still { worker with stage := .committing t, generator } engine
    have done := intended.more (move_apply applying rfl applied)
    exact ⟨_, _, done.more (move_commit committing rfl), rfl, rfl⟩

end Submission

/-- Only the worker at this place has had turns. -/
structure Alone (place : Nat) (w after : Workload) : Prop where
  run : ∃ turns, Run w turns after
  others : ∀ other, other ≠ place → after.workers[other]? = w.workers[other]?
  stop : after.engine.stop = w.engine.stop

theorem alone_advance (w : Workload) (place : Nat) : Alone place w (w.advance place) where
  run := ⟨_, .more .here (.turn place .none)⟩
  others other different := by
    unfold advance turn
    cases w.workers[place]? <;> simp [Ne.symm different]
  stop := by
    unfold advance turn
    cases w.workers[place]? <;> simp [stop_step]

theorem alone_advanceUntil (done : Workload → Bool) (place limit : Nat) (w : Workload) :
    Alone place w (w.advanceUntil done place limit) := by
  induction limit generalizing w with
  | zero => exact ⟨⟨[], .here⟩, fun _ _ => rfl, rfl⟩
  | succ limit ih =>
    unfold advanceUntil
    split
    · exact ⟨⟨[], .here⟩, fun _ _ => rfl, rfl⟩
    · obtain ⟨⟨first, turn⟩, others, stop⟩ := alone_advance w place
      obtain ⟨⟨later, run⟩, others', stop'⟩ := ih (w.advance place)
      exact ⟨⟨_, turn.trans run⟩, fun other different =>
        (others' other different).trans (others other different), stop'.trans stop⟩

theorem Alone.hasStopped {place other : Nat} (alone : Alone place w after) (different : other ≠ place) :
    hasStopped other after = hasStopped other w := by
  simp only [Workload.hasStopped, alone.others other different]

end Workload

end PageJournal
