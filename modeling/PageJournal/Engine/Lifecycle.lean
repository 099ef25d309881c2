import PageJournal.Engine.Transactions
/-!
Stopping an engine. Closing asks the background services to stop, waits for the log writer's last
drain, and then writes what was added since with a writer of its own. It can be done again.
-/
namespace PageJournal.Engine

def requestStop (e : Engine) : Engine :=
  let e := if e.stop.requested then e else e.note "engine" "shutdown requested"
  { e with stop := e.stop.request }

@[simp] theorem requestStop_store (e : Engine) : e.requestStop.store = e.store := by
  unfold requestStop
  split <;> rfl

@[simp] theorem requestStop_buffer (e : Engine) : e.requestStop.buffer = e.buffer := by
  unfold requestStop
  split <;> rfl

@[simp] theorem requestStop_sequence (e : Engine) : e.requestStop.sequence = e.sequence := by
  unfold requestStop
  split <;> rfl

@[simp] theorem requestStop_logPath (e : Engine) : e.requestStop.logPath = e.logPath := by
  unfold requestStop
  split <;> rfl

@[simp] theorem requestStop_running (e : Engine) : e.requestStop.running = e.running := by
  unfold requestStop
  split <;> rfl

@[simp] theorem requestStop_nextTransaction (e : Engine) :
    e.requestStop.nextTransaction = e.nextTransaction := by
  unfold requestStop
  split <;> rfl

/-- One round of the background log writer. -/
def writerRound (e : Engine) : Engine :=
  let (now, e) := e.now
  e.withFlusher (e.flusher.round e.sink now)

/-- Waits until the background services are gone. The request to stop wakes the log writer for one
more round, and then it drains for the last time. -/
def joinServices (e : Engine) : Engine :=
  if e.running then
    let (now, e) := e.writerRound.now
    { e.withFlusher (e.flusher.finish e.sink now) with running := false }
  else e

theorem joinServices_of_stopped {e : Engine} (stopped : e.running = false) : e.joinServices = e := by
  simp [joinServices, stopped]

/-- How the last drain of a close reaches the log: the way to open it, and the calls on what was opened. -/
structure Access where
  opening : Volume → Route → Except IoFault (Handle × Volume)
  calls : Handle → Log.Sink Volume

/-- The file that the volume has. -/
def Access.ordinary : Access := ⟨Volume.openAppend, Log.Sink.ofHandle⟩

/-- The engine once its waiting records were taken out. -/
def emptied (e : Engine) : Engine := { e with buffer := e.buffer.swap.2 }

/-- The log writer of a late drain, on the file that was opened for it. -/
def lateWriter (e : Engine) (disk : Volume) : Log.Flusher Volume :=
  { e.flusher with writer := { sink := disk, policy := e.config.syncPolicy } }

/-- The engine after a log writer worked that is not its own. -/
def withLate (e : Engine) (f : Log.Flusher Volume) : Engine :=
  e.withFlusher { f with writer := e.writer.onto f.writer.sink }

/-- Writes a batch that was swapped out through a file opened for it. -/
def deliverLate (e : Engine) (batch : List Log.Record) (a : Access := .ordinary) :
    Except Fault Nat × Engine :=
  match a.opening e.store.disk e.logPath with
  | .error cause => (.error (.io cause), e)
  | .ok (file, disk) =>
    match (e.lateWriter disk).deliver (a.calls file) batch with
    | (.ok n, late) => (.ok n, e.withLate late)
    | (.error cause, late) => (.error (.io cause), (e.withLate late).count .errors)

/-- Writes what is still waiting once the log writer is gone. -/
def drainRemaining (e : Engine) (a : Access := .ordinary) : Except Fault Nat × Engine :=
  if e.buffer.records.isEmpty then (.ok 0, e) else e.emptied.deliverLate e.buffer.records a

section LateDrain

variable {a : Access} {e : Engine} {batch : List Log.Record}

theorem deliverLate_refused {cause : IoFault}
    (refused : a.opening e.store.disk e.logPath = .error cause) :
    e.deliverLate batch a = (.error (.io cause), e) := by
  simp only [deliverLate, refused]

section Opened

variable {file : Handle} {disk : Volume} {late : Log.Flusher Volume}
  (opens : a.opening e.store.disk e.logPath = .ok (file, disk))

include opens

theorem deliverLate_written {n : Nat}
    (delivered : (e.lateWriter disk).deliver (a.calls file) batch = (.ok n, late)) :
    e.deliverLate batch a = (.ok n, e.withLate late) := by
  simp only [deliverLate, opens, delivered]

theorem deliverLate_failed {cause : IoFault}
    (delivered : (e.lateWriter disk).deliver (a.calls file) batch = (.error cause, late)) :
    e.deliverLate batch a = (.error (.io cause), (e.withLate late).count .errors) := by
  simp only [deliverLate, opens, delivered]

end Opened

theorem drainRemaining_nothing (none : e.buffer.records = []) : e.drainRemaining a = (.ok 0, e) := by
  simp [drainRemaining, none]

theorem drainRemaining_some (waiting : e.buffer.records ≠ []) :
    e.drainRemaining a = e.emptied.deliverLate e.buffer.records a := by
  simp [drainRemaining, waiting]

end LateDrain

/-- Stops the background services and makes every waiting record durable. -/
def close (e : Engine) (a : Access := .ordinary) : Except Fault Unit × Engine :=
  let stopping := e.running
  match e.requestStop.joinServices.drainRemaining a with
  | (.error fault, e) => (.error fault, e)
  | (.ok _, e) =>
    let e := e.flushEvents
    (.ok (), if stopping then (e.note "engine" "closed").flushEvents else e)

/-- Lets go of an engine: closes it if that is still possible, and drops its event log. -/
def release (e : Engine) : Engine := e.close.2.flushEvents

/-- Closes the engine and opens one with other settings on what it leaves behind. If that fails the
closed engine stays, else it is let go of. -/
def reopen (e : Engine) (c : Config) : Except Fault Unit × Engine :=
  let (_, closed) := e.close
  match openWith c closed.clock closed.store.disk with
  | (.error fault, disk) => (.error fault, { closed with store := { closed.store with disk } })
  | (.ok opened, disk) =>
    let released := { closed with store := { closed.store with disk } }.release
    (.ok (), { opened with store := { opened.store with disk := released.store.disk } })

end PageJournal.Engine
