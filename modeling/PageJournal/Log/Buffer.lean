import PageJournal.Log.Record
/-!
Records waiting for the log writer, first in first out. Producers push and, once a batch is full,
leave one request for the writer; a request that is already there absorbs the next. The writer
swaps the records out, and puts a batch that it could not write back in front.
-/
namespace PageJournal.Log

structure Buffer where
  /-- How many records make a full batch. -/
  batchSize : Nat
  records : List Record
  /-- A request to write is waiting for the writer. -/
  requested : Bool
  deriving DecidableEq, Repr

namespace Buffer

/-- An empty buffer; a batch holds one record at least. -/
def create (batchSize : Nat) : Buffer := ⟨max batchSize 1, [], false⟩

def push (b : Buffer) (r : Record) : Buffer := { b with records := b.records ++ [r] }

def isFull (b : Buffer) : Bool := b.batchSize ≤ b.records.length

def request (b : Buffer) : Buffer := { b with requested := true }

/-- Pushes a record, then leaves a request if it filled the batch. -/
def add (b : Buffer) (r : Record) : Buffer :=
  let pushed := b.push r
  if pushed.isFull then pushed.request else pushed

def swap (b : Buffer) : List Record × Buffer := (b.records, { b with records := [] })

/-- Puts a batch back in front of what was pushed since. -/
def requeue (b : Buffer) (batch : List Record) : Buffer :=
  { b with records := batch ++ b.records }

/-- Takes the waiting request, if there is one. -/
def takeRequest (b : Buffer) : Bool × Buffer := (b.requested, { b with requested := false })

@[simp] theorem records_create (n : Nat) : (create n).records = [] := rfl

@[simp] theorem records_push (b : Buffer) (r : Record) : (b.push r).records = b.records ++ [r] :=
  rfl

@[simp] theorem records_request (b : Buffer) : b.request.records = b.records := rfl

@[simp] theorem records_add (b : Buffer) (r : Record) : (b.add r).records = b.records ++ [r] := by
  simp only [add]
  split <;> rfl

@[simp] theorem records_swap (b : Buffer) : b.swap.2.records = [] := rfl

@[simp] theorem records_requeue (b : Buffer) (batch : List Record) :
    (b.requeue batch).records = batch ++ b.records := rfl

@[simp] theorem records_takeRequest (b : Buffer) : b.takeRequest.2.records = b.records := rfl

end Buffer

end PageJournal.Log
