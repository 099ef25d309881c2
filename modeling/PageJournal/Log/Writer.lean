import PageJournal.Config
import PageJournal.Log.Scan
import PageJournal.Log.Sink
/-!
Writing batches of records. A batch goes to the sink in pieces, each followed by a sync: one piece
for the whole batch, or one for every record.
-/
namespace PageJournal.Log

/-- The bytes of a record's line, with its end. -/
def Record.line (r : Record) : Bytes := Text.Utf8.encode (r.render ++ ['\n'])

/-- The pieces in which a batch is written. -/
def pieces (policy : SyncPolicy) (batch : List Record) : List Bytes :=
  match policy with
  | .perBatch => [batch.flatMap Record.line]
  | .perRecord => batch.map Record.line

/-- However a batch is cut, the same bytes are written. -/
theorem flatten_pieces (policy : SyncPolicy) (batch : List Record) :
    (pieces policy batch).flatten = batch.flatMap Record.line := by
  cases policy <;> simp [pieces, List.flatMap_def]

/-- A log writer: its sink, and what it has done so far. -/
structure Writer (σ : Type) where
  sink : σ
  policy : SyncPolicy
  recordsWritten : Nat := 0
  batchesWritten : Nat := 0
  syncs : Nat := 0

namespace Writer

variable {σ τ : Type}

/-- The same writer on another sink. -/
def onto (w : Writer σ) (s : τ) : Writer τ := { w with sink := s }

/-- Flushes the sink and makes it durable. -/
def force (io : Sink σ) (w : Writer σ) : Except IoFault Unit × Writer σ :=
  match io.flush w.sink with
  | (.error cause, s) => (.error cause, { w with sink := s })
  | (.ok _, s) =>
    match io.sync s with
    | (.error cause, s) => (.error cause, { w with sink := s })
    | (.ok _, s) => (.ok (), { w with sink := s, syncs := w.syncs + 1 })

/-- Writes one piece and makes it durable. -/
def writePiece (io : Sink σ) (piece : Bytes) (w : Writer σ) : Except IoFault Unit × Writer σ :=
  match io.writeAll piece w.sink with
  | (.error cause, s) => (.error cause, { w with sink := s })
  | (.ok _, s) => force io { w with sink := s }

/-- Writes pieces until one fails. -/
def writePieces (io : Sink σ) : List Bytes → Writer σ → Except IoFault Unit × Writer σ
  | [], w => (.ok (), w)
  | piece :: rest, w =>
    match w.writePiece io piece with
    | (.error cause, w) => (.error cause, w)
    | (.ok _, w) => writePieces io rest w

/-- Writes a batch and tells how often it was made durable. An empty batch touches nothing, and a
batch that fails is not counted. -/
def writeBatch (io : Sink σ) (batch : List Record) (w : Writer σ) :
    Except IoFault Nat × Writer σ :=
  if batch.isEmpty then (.ok 0, w)
  else
    let pieces := pieces w.policy batch
    match w.writePieces io pieces with
    | (.error cause, w) => (.error cause, w)
    | (.ok _, w) =>
      (.ok pieces.length,
        { w with
          recordsWritten := w.recordsWritten + batch.length
          batchesWritten := w.batchesWritten + 1 })

end Writer

end PageJournal.Log
