import PageJournal.Engine.Lifecycle
/-!
The background of an engine in simulated time. The log writer acts at once when a full batch asks
for it, and else whenever its interval has passed; the checkpoint workers act whenever theirs has.
Time passes only while somebody waits.
-/
namespace PageJournal.Engine

/-- One cycle of a checkpoint worker. A failure is counted and reported. -/
def workerCycle (e : Engine) (worker : UInt32) : Engine :=
  match e.cycle worker with
  | (.ok _, e) => e
  | (.error fault, e) => (e.count .errors).note "checkpoint" s!"cycle failed: {fault.message}"

def workerCycles (e : Engine) : Engine :=
  (List.range e.config.checkpointWorkers).foldl (fun e n => e.workerCycle (UInt32.ofNat n)) e

/-- Serves a full batch, and lets go of events that no longer fit in memory. -/
def settle (e : Engine) : Engine :=
  let e := if e.running && e.buffer.requested then e.writerRound else e
  let (events, disk) := e.events.spill e.store.disk
  { e with events, store := { e.store with disk } }

/-- When the services act next. -/
structure Due where
  writer : Nat
  workers : Nat

/-- Lets the service act that is due first. -/
def pass (e : Engine) (due : Due) : Engine × Due :=
  if e.config.checkpointWorkers > 0 && due.workers ≤ due.writer then
    (e.workerCycles, { due with workers := due.workers + max 1 e.config.checkpointInterval })
  else (e.writerRound, { due with writer := due.writer + max 1 e.config.flushInterval })

/-- Lets time pass until a counter has reached `n`, at most so many times. -/
def awaitFrom (c : Counter) (n : UInt64) : Nat → Due → Engine → Engine
  | 0, _, e => e
  | limit + 1, due, e =>
    if n ≤ e.store.counters.get c || !e.running || e.stop.requested then e
    else
      let (e, due) := e.pass due
      awaitFrom c n limit due e

/-- How often a service acts before a wait gives up. -/
def patience : Nat := 10000

/-- Waits until a counter has reached `n`; every service is due one interval from now. -/
def await (e : Engine) (c : Counter) (n : UInt64) : Engine :=
  awaitFrom c n patience ⟨e.config.flushInterval, e.config.checkpointInterval⟩ e.settle

end PageJournal.Engine
