import PageJournal.Volume.Calls
/-!
Where the bytes of a log go. One call may take only a part of its bytes; `writeAll` calls until
all are taken or a call fails, so what a failed run leaves behind is some beginning of the bytes.
-/
namespace PageJournal.Log

/-- The calls on a destination of bytes, each with the state that it leaves. -/
structure Sink (σ : Type) where
  /-- Takes a beginning of the bytes and tells its length. -/
  write : Bytes → σ → Except IoFault Nat × σ
  /-- Hands on what is held back. -/
  flush : σ → Except IoFault Unit × σ
  /-- Makes everything taken so far durable. -/
  sync : σ → Except IoFault Unit × σ

/-- Writes all bytes, call by call. A call that takes none of them fails. -/
def Sink.writeAll {σ : Type} (io : Sink σ) : Bytes → σ → Except IoFault Unit × σ
  | [], s => (.ok (), s)
  | b :: rest, s =>
    match io.write (b :: rest) s with
    | (.error cause, s) => (.error cause, s)
    | (.ok 0, s) => (.error .takesNothing, s)
    | (.ok (taken + 1), s) => io.writeAll (rest.drop taken) s
termination_by bytes => bytes.length

/-- An open file of a volume. A write takes all its bytes. -/
def Sink.ofHandle (h : Handle) : Sink Volume where
  write bytes v :=
    match v.append h bytes with
    | .ok v => (.ok bytes.length, v)
    | .error cause => (.error cause, v)
  flush v := (.ok (), v)
  sync v := (Volume.sync h, v)

/-- A log kept in memory whose calls can be limited or made to fail. -/
structure MemoryLog where
  /-- How many bytes it still takes; without a limit, all. -/
  room : Option Nat := none
  /-- The most bytes that one call takes. -/
  chunk : Option Nat := none
  failFlush : Bool := false
  failSync : Bool := false
  bytes : Bytes := []
  writes : Nat := 0
  syncs : Nat := 0
  deriving DecidableEq, Repr

namespace MemoryLog

/-- One write: at most the room that is left and at most one chunk. -/
def write (bytes : Bytes) (m : MemoryLog) : Except IoFault Nat × MemoryLog :=
  if m.room = some 0 then (.error (.reported false "sink full"), m)
  else
    let taken := min bytes.length (min (m.room.getD bytes.length) (m.chunk.getD bytes.length))
    (.ok taken,
      { m with
        room := m.room.map (· - taken)
        bytes := m.bytes ++ bytes.take taken
        writes := m.writes + 1 })

def flush (m : MemoryLog) : Except IoFault Unit × MemoryLog :=
  if m.failFlush then (.error (.reported false "flush failed"), m) else (.ok (), m)

def sync (m : MemoryLog) : Except IoFault Unit × MemoryLog :=
  if m.failSync then (.error (.reported false "sync failed"), m)
  else (.ok (), { m with syncs := m.syncs + 1 })

def sink : Sink MemoryLog := ⟨write, flush, sync⟩

end MemoryLog

end PageJournal.Log
