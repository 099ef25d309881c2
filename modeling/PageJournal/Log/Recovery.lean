import PageJournal.Log.Scan
/-!
What a log tells after a restart. A transaction is complete only if its record with the commit
flag reached the log. A line that repeats a sequence number is a retry and is dropped. The
summary is gathered in one pass over the items of the log.
-/
namespace PageJournal.Log

/-- What the log shows of one transaction. -/
structure History where
  /-- The sequence number of the latest record without the commit flag. -/
  before : Option UInt64 := none
  /-- The sequence number of the latest record with it. -/
  after : Option UInt64 := none
  /-- The commit stands before its first record, or has no larger number. -/
  misordered : Bool := false
  deriving DecidableEq, Repr

/-- One more record of the transaction. -/
def History.observe (h : History) (r : Record) : History :=
  if r.committed then
    let inOrder := h.before.any (· < r.lsn)
    { h with after := some r.lsn, misordered := h.misordered || !inOrder }
  else { h with before := some r.lsn, misordered := h.misordered || h.after.isSome }

abbrev Histories := List (UInt64 × History)

/-- Enters a record under its transaction. -/
def Histories.observe (r : Record) : Histories → Histories
  | [] => [(r.transaction, ({} : History).observe r)]
  | (id, h) :: rest =>
    if r.transaction < id then (r.transaction, ({} : History).observe r) :: (id, h) :: rest
    else if r.transaction = id then (id, h.observe r) :: rest
    else (id, h) :: Histories.observe r rest

/-- The counts and lists that describe a log. -/
structure Summary where
  recordsRead : Nat := 0
  /-- Lines that hold no record. -/
  recordsCorrupted : Nat := 0
  /-- Lines that repeat a sequence number. -/
  duplicateRecords : Nat := 0
  /-- Transactions with a record that carries the commit flag. -/
  committedTransactions : Nat := 0
  /-- Transactions without one, ascending. -/
  incompleteTransactions : List UInt64 := []
  /-- Transactions whose records contradict their order, ascending. -/
  orderingViolations : List UInt64 := []
  /-- The highest sequence number kept, zero if none. -/
  lastLsn : UInt64 := 0
  /-- The highest transaction kept, zero if none. -/
  lastTransaction : UInt64 := 0
  deriving DecidableEq, Repr

/-- What has been gathered so far. -/
structure Gathered where
  kept : List Record := []
  corrupted : Nat := 0
  duplicates : Nat := 0
  histories : Histories := []
  lastLsn : UInt64 := 0
  lastTransaction : UInt64 := 0
  deriving DecidableEq, Repr

namespace Gathered

def keep (g : Gathered) (r : Record) : Gathered :=
  { g with
    kept := g.kept ++ [r]
    histories := g.histories.observe r
    lastLsn := max g.lastLsn r.lsn
    lastTransaction := max g.lastTransaction r.transaction }

/-- Takes in one item: a damaged line and a repeated number are only counted. -/
def absorb (g : Gathered) : Item → Gathered
  | .damaged _ => { g with corrupted := g.corrupted + 1 }
  | .record r =>
    if g.kept.any (·.lsn == r.lsn) then { g with duplicates := g.duplicates + 1 } else g.keep r

def summary (g : Gathered) : Summary where
  recordsRead := g.kept.length
  recordsCorrupted := g.corrupted
  duplicateRecords := g.duplicates
  committedTransactions := g.histories.countP (·.2.after.isSome)
  incompleteTransactions := (g.histories.filter (!·.2.after.isSome)).map (·.1)
  orderingViolations := (g.histories.filter (·.2.misordered)).map (·.1)
  lastLsn := g.lastLsn
  lastTransaction := g.lastTransaction

end Gathered

def gather (bytes : Bytes) : Gathered := (items bytes).foldl Gathered.absorb {}

/-- The records of the log in file order, and its summary. -/
def recover (bytes : Bytes) : List Record × Summary :=
  let gathered := gather bytes
  (gathered.kept, gathered.summary)

def verify (bytes : Bytes) : Summary := (gather bytes).summary

end PageJournal.Log
