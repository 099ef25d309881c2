import PageJournal.Proofs.Engine.Layout
import PageJournal.Proofs.Log.Rounds

/-! A batch that is written through the file of an engine's log. The file takes everything, so the batch
goes through and its lines stand at the end of the log. -/
namespace PageJournal

open Log

theorem Log.writePiece_ofHandle {k : Nat} {piece : Bytes} {w : Writer Volume} {after : Volume}
    (appended : w.sink.append (.file k) piece = .ok after) :
    w.writePiece (.ofHandle (.file k)) piece = (.ok (), { w with sink := after, syncs := w.syncs + 1 }) := by
  cases piece with
  | nil =>
    rw [w.sink.append_nil k] at appended
    cases appended
    unfold Writer.writePiece Sink.writeAll
    rfl
  | cons b rest =>
    cases appended
    unfold Writer.writePiece Sink.writeAll
    simp [Sink.ofHandle, Volume.append, Volume.sync, Sink.writeAll, Writer.force]

theorem Log.writePiece_file (k : Nat) (piece : Bytes) (w : Writer Volume) :
    ∃ writer, w.writePiece (.ofHandle (.file k)) piece = (.ok (), writer) ∧
      w.sink.append (.file k) piece = .ok writer.sink :=
  ⟨_, writePiece_ofHandle rfl, rfl⟩

theorem Log.writePieces_file (k : Nat) (left : List Bytes) (w : Writer Volume) :
    ∃ writer, w.writePieces (.ofHandle (.file k)) left = (.ok (), writer) ∧
      w.sink.append (.file k) left.flatten = .ok writer.sink := by
  induction left generalizing w with
  | nil => exact ⟨w, rfl, w.sink.append_nil k⟩
  | cons piece left ih =>
    obtain ⟨next, wrote, first⟩ := writePiece_file k piece w
    obtain ⟨last, done, rest⟩ := ih next
    refine ⟨last, by simp only [Writer.writePieces, wrote, done], ?_⟩
    rw [List.flatten_cons, ← Volume.append_append first, rest]

namespace Engine

/-- The engine on another state of its disk. -/
def onDisk (e : Engine) (disk : Volume) : Engine := { e with store := { e.store with disk } }

variable {home : Path} {k : Nat} {bytes : Bytes} {e : Engine}

theorem Layout.onDisk (layout : e.Layout home k bytes) {disk : Volume} (same : disk = e.store.disk) :
    (e.onDisk disk).Layout home k bytes := layout.congr same rfl rfl rfl rfl

theorem Layout.writePieces (layout : e.Layout home k bytes) (left : List Bytes)
    {w : Writer Volume} (here : w.sink = e.store.disk) :
    ∃ writer, w.writePieces (.ofHandle (.file k)) left = (.ok (), writer) ∧
      (e.onDisk writer.sink).Layout home k (bytes ++ left.flatten) := by
  obtain ⟨writer, done, appended⟩ := writePieces_file k left w
  exact ⟨writer, done, layout.append (here ▸ appended) rfl rfl rfl rfl⟩

/-- A batch that is delivered to the log's file is written whole. -/
theorem Layout.deliver (layout : e.Layout home k bytes) (batch : List Record)
    {f : Flusher Volume} (here : f.writer.sink = e.store.disk) :
    ∃ after, f.deliver (.ofHandle (.file k)) batch = (.ok batch.length, after) ∧
      after.buffer = f.buffer ∧ after.events = f.events ∧
      (e.onDisk after.writer.sink).Layout home k (bytes ++ batch.flatMap Record.line) := by
  obtain ⟨writer, done, grown⟩ := layout.writePieces (pieces f.writer.policy batch) here
  rw [flatten_pieces] at grown
  unfold Flusher.deliver Writer.writeBatch
  cases batch with
  | nil => exact ⟨_, rfl, rfl, rfl, (List.append_nil bytes).symm ▸ layout.onDisk here⟩
  | cons r rest =>
    simp only [List.isEmpty_cons, Bool.false_eq_true, if_false, done]
    exact ⟨_, rfl, rfl, rfl, grown⟩

end Engine

end PageJournal
