import PageJournal.Text.Fixed
/-!
The ten counters of a store. A counter is a 64-bit word that wraps; adding to one leaves the
others alone.
-/
namespace PageJournal

inductive Counter where
  | transactions
  | reads
  | writes
  | cacheHits
  | cacheMisses
  | checkpoints
  | errors
  | recordsWritten
  | batches
  | syncs
  deriving DecidableEq, Repr

/-- The value of every counter at one moment. -/
structure Counters where
  transactions : UInt64 := 0
  reads : UInt64 := 0
  writes : UInt64 := 0
  cacheHits : UInt64 := 0
  cacheMisses : UInt64 := 0
  checkpoints : UInt64 := 0
  errors : UInt64 := 0
  recordsWritten : UInt64 := 0
  batches : UInt64 := 0
  syncs : UInt64 := 0
  deriving DecidableEq, Repr

namespace Counters

def get (m : Counters) : Counter → UInt64
  | .transactions => m.transactions
  | .reads => m.reads
  | .writes => m.writes
  | .cacheHits => m.cacheHits
  | .cacheMisses => m.cacheMisses
  | .checkpoints => m.checkpoints
  | .errors => m.errors
  | .recordsWritten => m.recordsWritten
  | .batches => m.batches
  | .syncs => m.syncs

def add (m : Counters) (c : Counter) (n : UInt64) : Counters :=
  match c with
  | .transactions => { m with transactions := m.transactions + n }
  | .reads => { m with reads := m.reads + n }
  | .writes => { m with writes := m.writes + n }
  | .cacheHits => { m with cacheHits := m.cacheHits + n }
  | .cacheMisses => { m with cacheMisses := m.cacheMisses + n }
  | .checkpoints => { m with checkpoints := m.checkpoints + n }
  | .errors => { m with errors := m.errors + n }
  | .recordsWritten => { m with recordsWritten := m.recordsWritten + n }
  | .batches => { m with batches := m.batches + n }
  | .syncs => { m with syncs := m.syncs + n }

def tick (m : Counters) (c : Counter) : Counters := m.add c 1

theorem get_add (m : Counters) (c d : Counter) (n : UInt64) :
    (m.add c n).get d = if d = c then m.get d + n else m.get d := by
  cases c <;> cases d <;> simp [add, get]

theorem get_tick (m : Counters) (c d : Counter) :
    (m.tick c).get d = if d = c then m.get d + 1 else m.get d := get_add m c d 1

theorem get_zero (c : Counter) : ({} : Counters).get c = 0 := by cases c <;> rfl

/-- The share of cache look-ups that hit; zero before the first. -/
def hitRatio (m : Counters) : Float :=
  let lookups := m.cacheHits + m.cacheMisses
  if lookups = 0 then 0.0 else m.cacheHits.toFloat / lookups.toFloat

/-- All counters on one line, the hit ratio with two places. -/
def summary (m : Counters) : String :=
  let ratio := String.ofList (Text.fixed 2 m.hitRatio)
  s!"txns={m.transactions} reads={m.reads} writes={m.writes} cache_hits={m.cacheHits} " ++
    s!"cache_misses={m.cacheMisses} hit_ratio={ratio} checkpoints={m.checkpoints} " ++
    s!"errors={m.errors} wal_records={m.recordsWritten} wal_batches={m.batches} " ++
    s!"wal_syncs={m.syncs}"

end Counters

end PageJournal
