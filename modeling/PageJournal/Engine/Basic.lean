import PageJournal.Checkpoint.Cycle
import PageJournal.Clock
import PageJournal.Log.File
import PageJournal.Log.Flusher
import PageJournal.StopSignal
import PageJournal.Transaction.Generator
/-!
An engine: a page store, its log and its checkpoints in one data directory. Opening scans the log
that is there, so that sequence numbers and transactions continue behind it.
-/
namespace PageJournal

structure Engine where
  config : Config
  dir : Path
  store : PageStore
  buffer : Log.Buffer
  sequence : Log.Sequence
  /-- The background log writer and the file that it has open. -/
  writer : Log.Writer Handle
  checkpointLog : Checkpoint.LogFile
  phase : Checkpoint.Phase
  events : EventLog
  nextTransaction : UInt64
  /-- Where transactions come from that the caller does not spell out. -/
  generator : Generator
  stop : StopSignal
  /-- The background services have not been waited for yet. -/
  running : Bool
  /-- What the log held when the engine was opened. -/
  recovery : Log.Summary
  clock : Clock

namespace Engine

def logName : String := "wal.log"

def checkpointLogName : String := "checkpoint.log"

def eventLogName : String := "events.log"

def pagesName : String := "pages"

def logPath (e : Engine) : Path := e.dir.child logName

def count (e : Engine) (c : Counter) : Engine := { e with store := e.store.count c }

def now (e : Engine) : UInt64 × Engine :=
  let (now, clock) := e.clock.now
  (now, { e with clock })

def note (e : Engine) (component message : String) : Engine :=
  let (now, e) := e.now
  { e with events := e.events.record now component message }

def flushEvents (e : Engine) : Engine :=
  let (events, disk) := e.events.flush e.store.disk
  { e with events, store := { e.store with disk } }

def onStore {α : Type} (act : PageStore → α × PageStore) (e : Engine) : α × Engine :=
  let (result, store) := act e.store
  (result, { e with store })

def checkpointer (e : Engine) : Checkpoint.Checkpointer where
  store := e.store
  sequence := e.sequence
  log := e.checkpointLog
  phase := e.phase
  flushThreads := e.config.flushThreads
  events := e.events

/-- The engine after the checkpointer worked. -/
def withCheckpointer (e : Engine) (c : Checkpoint.Checkpointer) : Engine :=
  { e with
    store := c.store
    sequence := c.sequence
    checkpointLog := c.log
    phase := c.phase
    events := c.events }

/-- What a log writer works on. -/
def flusher (e : Engine) : Log.Flusher Volume where
  writer := e.writer.onto e.store.disk
  buffer := e.buffer
  sequence := e.sequence
  counters := e.store.counters
  events := e.events

/-- The engine after a log writer worked. The writer keeps its file. -/
def withFlusher (e : Engine) (f : Log.Flusher Volume) : Engine :=
  { e with
    writer := f.writer.onto e.writer.sink
    store := { e.store with disk := f.writer.sink, counters := f.counters }
    buffer := f.buffer
    sequence := f.sequence
    events := f.events }

/-- The calls on the log file that the background writer has open. -/
def sink (e : Engine) : Log.Sink Volume := .ofHandle e.writer.sink

@[simp] theorem withFlusher_flusher (e : Engine) : e.withFlusher e.flusher = e := rfl

@[simp] theorem withCheckpointer_checkpointer (e : Engine) :
    e.withCheckpointer e.checkpointer = e := rfl

/-- The event about a log that was there before, if it holds anything. -/
def scanEvent? (s : Log.Summary) : Option String :=
  if s.recordsRead > 0 || s.recordsCorrupted > 0 then
    some (s!"wal scan records={s.recordsRead} corrupted={s.recordsCorrupted} " ++
      s!"incomplete={s.incompleteTransactions.length} last_lsn={s.lastLsn}")
  else none

/-- The parts of an engine that are opened behind its event log. -/
structure Parts where
  store : PageStore
  writer : Log.Writer Handle
  checkpointLog : Checkpoint.LogFile

/-- Opens the page store, the log and the checkpoint log, in this order. -/
def openParts (c : Config) (dir : Path) (v : Volume) : Except Fault Parts × Volume :=
  let cache := Cache.create c.cacheCapacity c.cachePolicy
  match PageStore.openAt c (dir.child pagesName) cache {} v with
  | (.error fault, v) => (.error fault, v)
  | (.ok store, v) =>
    match v.openAppend (dir.child logName) with
    | .error cause => (.error (.io cause), v)
    | .ok (file, v) =>
      match Checkpoint.LogFile.openAt v (dir.child checkpointLogName) with
      | .error cause => (.error (.io cause), v)
      | .ok (checkpointLog, v) =>
        (.ok ⟨{ store with disk := v }, { sink := file, policy := c.syncPolicy }, checkpointLog⟩, v)

/-- Makes the data directory of the settings. -/
def makeDirectory (c : Config) (v : Volume) : Except IoFault (Path × Volume) := do
  let route ← Route.ofText c.dataDir
  .ok (route.names, ← v.createDirectories route.names)

/-- Opens an engine in the data directory of the settings. What was made on the way stays behind
when a later step fails. -/
def openWith (c : Config) (clock : Clock) (v : Volume) : Except Fault Engine × Volume :=
  match c.validate with
  | .error fault => (.error fault, v)
  | .ok _ =>
    match makeDirectory c v with
    | .error cause => (.error (.io cause), v)
    | .ok (dir, v) =>
      match EventLog.openAt v (dir.child eventLogName) with
      | .error cause => (.error (.io cause), v)
      | .ok (events, v) =>
        match Log.verifyAt v (dir.child logName) with
        | .error fault => (.error fault, v)
        | .ok recovery =>
          let (time, clock) := clock.now
          let events := match scanEvent? recovery with
            | some message => events.record time "engine" message
            | none => events
          match openParts c dir v with
          | (.error fault, v) => (.error fault, (events.flush v).2)
          | (.ok parts, _) =>
            let e : Engine :=
              { config := c
                dir
                store := parts.store
                buffer := Log.Buffer.create c.batchSize
                sequence := Log.Sequence.startingAt (recovery.lastLsn + 1)
                writer := parts.writer
                checkpointLog := parts.checkpointLog
                phase := .idle
                events
                nextTransaction := recovery.lastTransaction + 1
                generator := Generator.create c.seed c.pageCount c.payloadSize
                stop := {}
                running := true
                recovery
                clock }
            let e := e.note "engine" "opened"
            (.ok e, e.store.disk)

end Engine

end PageJournal
