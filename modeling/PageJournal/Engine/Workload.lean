import PageJournal.Engine.Lifecycle
/-!
A workload: workers that generate and run transactions on one engine until a shared budget is spent
or the engine is asked to stop. A worker does one thing at a time, so the turns of several workers may
be interleaved in any way, in the middle of their transactions too.
-/
namespace PageJournal

/-- What a worker does next. -/
inductive WorkerStage where
  | checking
  | claiming
  | counting
  | submitting
  /-- The first record of the transaction is logged. -/
  | applying (t : Transaction)
  | committing (t : Transaction)
  | pausing
  | stopped
  deriving DecidableEq, Repr

/-- A worker with transactions of its own. -/
structure Worker where
  thread : UInt32
  generator : Generator
  stage : WorkerStage
  deriving DecidableEq, Repr

/-- One unit less of a budget, if it is not spent. -/
def claim? (budget : UInt64) : Option UInt64 := if budget = 0 then none else some (budget - 1)

structure Workload where
  engine : Engine
  /-- How many transactions may still be claimed; without it, any number. -/
  budget : Option UInt64
  /-- How many transactions were handed to the engine. -/
  attempted : UInt64
  workers : List Worker

namespace Workload

/-- The worker of a number, with a seed of its own if the settings have one. -/
def worker (c : Config) (n : Nat) : Worker where
  thread := UInt32.ofNat n
  generator := Generator.create (c.seed.map (· + UInt64.ofNat n)) c.pageCount c.payloadSize
  stage := .checking

def start (e : Engine) (budget : Option UInt64) : Workload :=
  ⟨e, budget, 0, (List.range e.config.transactionWorkers).map (worker e.config)⟩

/-- The next thing that a worker does, and the result if a transaction ends with it. -/
def step (w : Workload) (worker : Worker) (trouble : Trouble := .none) :
    Option (Except Fault Transaction) × Worker × Workload :=
  match worker.stage with
  | .checking =>
    (none, { worker with stage := if w.engine.stop.requested then .stopped else .claiming }, w)
  | .claiming =>
    match w.budget with
    | none => (none, { worker with stage := .counting }, w)
    | some budget =>
      match claim? budget with
      | none => (none, { worker with stage := .stopped }, w)
      | some left => (none, { worker with stage := .counting }, { w with budget := some left })
  | .counting =>
    (none, { worker with stage := .submitting }, { w with attempted := w.attempted + 1 })
  | .submitting =>
    let (t, generator, engine) := w.engine.generate worker.generator worker.thread
    (none, { worker with stage := .applying t, generator },
      { w with engine := engine.log t t.lsn })
  | .applying t =>
    match w.engine.apply t trouble with
    | (.error fault, engine) =>
      (some (.error fault), { worker with stage := .pausing },
        { w with engine := engine.abandon t fault })
    | (.ok _, engine) => (none, { worker with stage := .committing t }, { w with engine })
  | .committing t =>
    let (t, engine) := w.engine.commit t
    (some (.ok t), { worker with stage := .pausing }, { w with engine })
  | .pausing =>
    let delay := w.engine.config.transactionDelay
    let asked := delay != 0 && w.engine.stop.wait delay
    (none, { worker with stage := if asked then .stopped else .checking }, w)
  | .stopped => (none, worker, w)

/-- The turn of the worker at a place in the list. -/
def turn (w : Workload) (place : Nat) (trouble : Trouble := .none) :
    Option (Except Fault Transaction) × Workload :=
  match w.workers[place]? with
  | some worker =>
    let (result, next, after) := w.step worker trouble
    (result, { after with workers := w.workers.set place next })
  | none => (none, w)

/-- Workers do not look at the results of their transactions. -/
def advance (w : Workload) (place : Nat) : Workload := (w.turn place).2

/-- Turns of one worker until `done` holds, at most so many. -/
def advanceUntil (done : Workload → Bool) (place : Nat) : Nat → Workload → Workload
  | 0, w => w
  | limit + 1, w => if done w then w else advanceUntil done place limit (w.advance place)

/-- Whether the worker at a place has stopped. -/
def hasStopped (place : Nat) (w : Workload) : Bool :=
  (w.workers[place]?).all (·.stage == .stopped)

/-- Runs every worker to its end, one after another, at most so many turns each. -/
def finish (limit : Nat) (w : Workload) : Workload :=
  (List.range w.workers.length).foldl
    (fun w place => w.advanceUntil (hasStopped place) place limit) w

/-- A transaction takes a worker seven turns. -/
def spend (e : Engine) (budget : UInt64) : Workload :=
  (start e (some budget)).finish (7 * budget.toNat + 7)

/-- Runs workers without a budget until they have attempted so much, then asks all to stop. -/
def runUntil (e : Engine) (target : UInt64) : Workload :=
  let w := (start e none).advanceUntil (fun w => target ≤ w.attempted) 0 (7 * target.toNat + 7)
  { w with engine := w.engine.requestStop }.finish 8

end Workload

end PageJournal
