import PageJournal.Engine.Lifecycle
import PageJournal.Proofs.Log.Rounds

/-! An engine that many threads use at once. Transactions begin and are executed, the log writer
drains, and a close waits for it and drains once more; a run is any order of their steps. -/
namespace PageJournal

open Log

/-- How far a transaction has come. -/
inductive Stage where
  /-- It has its number, but its first record has none. -/
  | claimed (id : UInt64)
  | begun (t : Transaction)
  /-- Its first record was added. -/
  | intended (t : Transaction)
  | applied (t : Transaction)
  /-- It is committed, and its second record has its number. -/
  | numbered (t : Transaction) (lsn : UInt64)
  | ended

/-- How far a close has come. -/
inductive Closing where
  | joining
  /-- It writes what was left through a file of its own. -/
  | writing (late : Writer Handle)
  | drained

structure Close where
  /-- How many records had been added when it began. -/
  since : Nat
  /-- The services were running then. -/
  stopping : Bool
  progress : Closing

structure Session where
  engine : Engine
  stages : List Stage
  /-- What the drain in progress holds. -/
  hand : Hand
  close : Option Close
  /-- Every record that was added, in this order. -/
  added : List Record
  /-- How many records had been added when each close began that returned without a fault. -/
  closed : List Nat

namespace Session

def start (e : Engine) : Session := ⟨e, [], .empty, none, [], []⟩

/-- A transaction comes to another stage. -/
def move (s : Session) (i : Nat) (stage : Stage) (e : Engine) : Session :=
  { s with engine := e, stages := s.stages.set i stage }

/-- A record of a transaction is added. -/
def log (s : Session) (i : Nat) (stage : Stage) (t : Transaction) (lsn : UInt64) (e : Engine) :
    Session :=
  { s.move i stage e with added := s.added ++ [t.record lsn s.engine.now.1] }

/-- The drain in progress, on the writer that it goes through. -/
def loop (s : Session) (w : Writer Handle) : Loop Volume :=
  { flusher := { s.engine.flusher with writer := w.onto s.engine.store.disk }
    hand := s.hand
    since := s.engine.store.disk
    drains := [] }

/-- A step of the background writer. -/
def background (s : Session) (step : Log.Step) (io : Sink Volume := s.engine.sink) : Session :=
  let l := (s.loop s.engine.writer).step io step
  { s with engine := s.engine.withFlusher l.flusher, hand := l.hand }

/-- A step of the drain of a close, which returns with a fault if its batch is refused. -/
def late (s : Session) (c : Close) (w : Writer Handle) (step : Log.Step)
    (io : Sink Volume := .ofHandle w.sink) : Session :=
  let l := (s.loop w).step io step
  { s with
    engine := s.engine.withLate l.flusher
    hand := l.hand
    close := match l.drains with
      | [] => some { c with progress := .writing (l.flusher.writer.onto w.sink) }
      | d :: _ => if d.succeeded then some { c with progress := .drained } else none }

/-- The last thing that a close does. -/
def farewell (e : Engine) (stopping : Bool) : Engine :=
  let e := e.flushEvents
  if stopping then (e.note "engine" "closed").flushEvents else e

/-- What can happen next. -/
inductive Step (s : Session) : Session → Prop where
  | tick : Step s { s with engine := s.engine.now.2 }
  | claim : Step s { s with
      engine := s.engine.allocateTransaction.2
      stages := s.stages ++ [.claimed s.engine.allocateTransaction.1] }
  | begin {i : Nat} {id : UInt64} (claimed : s.stages[i]? = some (.claimed id)) (thread : UInt32)
      (operation : Operation) (page : PageId) (payload : Bytes) :
    Step s (s.move i
      (.begun ⟨id, thread, operation, page, payload, s.engine.allocateLsn.1, false⟩)
      s.engine.allocateLsn.2)
  | intend {i : Nat} {t : Transaction} (begun : s.stages[i]? = some (.begun t)) :
    Step s (s.log i (.intended t) t t.lsn (s.engine.log t t.lsn))
  | apply {i : Nat} {t : Transaction} (intended : s.stages[i]? = some (.intended t))
      (trouble : Trouble) (done : (s.engine.apply t trouble).1 = .ok ()) :
    Step s (s.move i (.applied t) (s.engine.apply t trouble).2)
  | abandon {i : Nat} {t : Transaction} (intended : s.stages[i]? = some (.intended t))
      (trouble : Trouble) {fault : Fault} (failed : (s.engine.apply t trouble).1 = .error fault) :
    Step s (s.move i .ended ((s.engine.apply t trouble).2.abandon t fault))
  | number {i : Nat} {t : Transaction} (applied : s.stages[i]? = some (.applied t)) :
    Step s (s.move i (.numbered t.commit s.engine.allocateLsn.1) s.engine.allocateLsn.2)
  | commit {i : Nat} {t : Transaction} {lsn : UInt64}
      (numbered : s.stages[i]? = some (.numbered t lsn)) :
    Step s (s.log i .ended t lsn ((s.engine.log t lsn).count .transactions))
  | wake : Step s { s with engine := { s.engine with buffer := s.engine.buffer.takeRequest.2 } }
  | drain (running : s.engine.running = true) {step : Log.Step} (silent : step.record? = none) :
    Step s (s.background step)
  | count : Step s { s with engine := s.engine.count .errors }
  | tell (now : UInt64) (component message : String) :
    Step s { s with engine :=
      { s.engine with events := s.engine.events.record now component message } }
  | exit (asked : s.engine.stop.requested = true) (free : s.hand = .empty) :
    Step s { s with engine := { s.engine with running := false } }
  | close (alone : s.close = none) :
    Step s { s with
      engine := s.engine.requestStop
      close := some ⟨s.added.length, s.engine.running, .joining⟩ }
  | nothing {c : Close} (closing : s.close = some c) (joining : c.progress = .joining)
      (gone : s.engine.running = false) (none : s.engine.buffer.records = []) :
    Step s { s with close := some { c with progress := .drained } }
  | «open» {c : Close} (closing : s.close = some c) (joining : c.progress = .joining)
      (gone : s.engine.running = false) {file : Handle} {disk : Volume}
      (opened : s.engine.store.disk.openAppend s.engine.logPath = .ok (file, disk)) :
    Step s { s with
      engine := { s.engine with
        buffer := s.engine.buffer.swap.2
        store := { s.engine.store with disk } }
      hand := .writing s.engine.buffer.records
        (pieces s.engine.config.syncPolicy s.engine.buffer.records)
      close := some { c with
        progress := .writing { sink := file, policy := s.engine.config.syncPolicy } } }
  | refuse {c : Close} (closing : s.close = some c) (joining : c.progress = .joining)
      (gone : s.engine.running = false) {cause : IoFault}
      (refused : s.engine.store.disk.openAppend s.engine.logPath = .error cause) :
    Step s { s with
      engine := { s.engine with buffer := s.engine.buffer.swap.2 }
      close := none }
  | late {c : Close} {w : Writer Handle} (closing : s.close = some c)
      (writing : c.progress = .writing w) {step : Log.Step}
      (which : step = .write ∨ step = .settle) : Step s (s.late c w step)
  | leave {c : Close} (closing : s.close = some c) (drained : c.progress = .drained) :
    Step s { s with
      engine := farewell s.engine c.stopping
      close := none
      closed := s.closed ++ [c.since] }

/-- A run is any number of steps. -/
inductive Runs (s : Session) : Session → Prop where
  | here : Runs s s
  | more {t u : Session} (run : Runs s t) (step : Step t u) : Runs s u

end Session

end PageJournal
