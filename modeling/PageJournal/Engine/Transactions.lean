import PageJournal.Engine.Basic
/-!
Transactions of an engine. The intent is logged first, then the operation is applied, then the
outcome is logged with a number of its own. A transaction whose operation fails is abandoned: it is
counted and reported, and no second record follows. Pages can also be read and written directly,
which logs nothing.
-/
namespace PageJournal.Engine

def allocateTransaction (e : Engine) : UInt64 × Engine :=
  (e.nextTransaction, { e with nextTransaction := e.nextTransaction + 1 })

def allocateLsn (e : Engine) : UInt64 × Engine :=
  let (lsn, sequence) := e.sequence.allocate
  (lsn, { e with sequence })

/-- Begins a transaction under a fresh number. -/
def begin (e : Engine) (thread : UInt32) (operation : Log.Operation) (page : PageId)
    (payload : Bytes) : Transaction × Engine :=
  let (id, e) := e.allocateTransaction
  let (lsn, e) := e.allocateLsn
  ({ id, thread, operation, page, payload, lsn, committed := false }, e)

/-- Begins the next transaction of a generator. -/
def generate (e : Engine) (g : Generator) (thread : UInt32) :
    Transaction × Generator × Engine :=
  let (id, e) := e.allocateTransaction
  let (lsn, e) := e.allocateLsn
  let (t, g) := g.transaction id thread lsn
  (t, g, e)

def log (e : Engine) (t : Transaction) (lsn : UInt64) : Engine :=
  let (now, e) := e.now
  { e with buffer := e.buffer.add (t.record lsn now) }

/-- Does what the operation of a transaction says: a read goes through the cache, everything else
writes the payload. -/
def apply (e : Engine) (t : Transaction) (trouble : Trouble := .none) :
    Except Fault Unit × Engine :=
  e.onStore fun s =>
    if t.operation.isWrite then s.write t.page t.payload trouble
    else
      let (found, s) := s.fetch t.page
      (found.map fun _ => (), s)

/-- Counts and reports a transaction whose operation failed. -/
def abandon (e : Engine) (t : Transaction) (fault : Fault) : Engine :=
  (e.count .errors).note "txn"
    s!"txn={t.id} op={t.operation.name} abandoned: {fault.message}"

/-- Commits a transaction and logs it under a number of its own. -/
def commit (e : Engine) (t : Transaction) : Transaction × Engine :=
  let t := t.commit
  let (lsn, e) := e.allocateLsn
  (t, (e.log t lsn).count .transactions)

/-- Runs a transaction from its first record to its end. -/
def execute (e : Engine) (t : Transaction) (trouble : Trouble := .none) :
    Except Fault Transaction × Engine :=
  match (e.log t t.lsn).apply t trouble with
  | (.error fault, e) => (.error fault, e.abandon t fault)
  | (.ok _, e) =>
    let (t, e) := e.commit t
    (.ok t, e)

/-- Runs the next transaction of the engine's own generator. -/
def submit (e : Engine) (thread : UInt32) (trouble : Trouble := .none) :
    Except Fault Transaction × Engine :=
  let (t, generator, e) := e.generate e.generator thread
  { e with generator }.execute t trouble

/-- Counts a failure of a direct operation. -/
def countFailure {α : Type} : Except Fault α × Engine → Except Fault α × Engine
  | (.ok a, e) => (.ok a, e)
  | (.error fault, e) => (.error fault, e.count .errors)

def read (e : Engine) (page : PageId) : Except Fault Bytes × Engine :=
  countFailure (e.onStore (·.fetch page))

def write (e : Engine) (page : PageId) (payload : Bytes) (trouble : Trouble := .none) :
    Except Fault Unit × Engine :=
  countFailure (e.onStore (·.write page payload trouble))

/-- One checkpoint cycle, whose failure is not counted. -/
def cycle (e : Engine) (thread : UInt32) (trouble : PageId → Trouble := fun _ => .none) :
    Except Fault Checkpoint.Report × Engine :=
  let (now, e) := e.now
  let (report, c) := e.checkpointer.cycle now thread trouble
  (report, e.withCheckpointer c)

/-- One checkpoint cycle on behalf of the caller. -/
def checkpoint (e : Engine) (thread : UInt32) (trouble : PageId → Trouble := fun _ => .none) :
    Except Fault Checkpoint.Report × Engine :=
  countFailure (e.cycle thread trouble)

end PageJournal.Engine
