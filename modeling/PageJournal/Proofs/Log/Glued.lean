import Mathlib.Data.List.Induction
import PageJournal.Proofs.Log.Scan

/-! A line that is written behind bytes without an end. Whatever those bytes are, the reader takes both for
one line, and that line holds no record. -/
namespace PageJournal.Log

open Text

/-- Every log is whole lines and a last one that may be open. -/
theorem exists_open_tail (bytes : Bytes) :
    ∃ front tail, bytes = front ++ tail ∧ Closed front ∧ lineFeed ∉ tail := by
  induction bytes using List.reverseRecOn with
  | nil => exact ⟨[], [], rfl, .inl rfl, by simp⟩
  | append_singleton bytes b ih =>
    by_cases feed : b = lineFeed
    · exact ⟨bytes ++ [b], [], by simp, feed ▸ closed_concat bytes, by simp⟩
    · obtain ⟨front, tail, rfl, closed, noFeed⟩ := ih
      exact ⟨front, tail ++ [b], by simp, closed, by simp [noFeed, Ne.symm feed]⟩

/-- The lines that have their end. -/
def wholeLines (bytes : Bytes) : Bytes := dropTrailing (· != lineFeed) bytes

theorem wholeLines_append {front tail : Bytes} (closed : Closed front) (noFeed : lineFeed ∉ tail) :
    wholeLines (front ++ tail) = front := by
  have all : ∀ b ∈ tail, (b != lineFeed) = true := by
    intro b mem
    rw [bne_iff_ne]
    rintro rfl
    exact noFeed mem
  rw [wholeLines, dropTrailing_append all]
  rcases closed with rfl | last
  · rfl
  · obtain ⟨lines, rfl⟩ := List.getLast?_eq_some_iff.mp last
    exact dropTrailing_concat (by simp) lines

theorem wholeLines_closed {bytes : Bytes} (closed : Closed bytes) : wholeLines bytes = bytes := by
  have none : wholeLines (bytes ++ []) = bytes := wholeLines_append closed List.not_mem_nil
  rwa [List.append_nil] at none

theorem items_glued {tail : Bytes} (nonempty : tail ≠ []) (noFeed : lineFeed ∉ tail) (r : Record) :
    ∃ cause, items (tail ++ r.line) = [.damaged cause] := by
  have alone : lines (tail ++ r.line) = [tail ++ r.line] := by
    have none : lineFeed ∉ tail ++ r.text := by simp [noFeed, r.lineFeed_not_mem_text]
    rw [Record.line_eq, ← List.append_assoc, lines_append_lineFeed none]
    rfl
  suffices ∃ cause, Item.ofLine? (tail ++ r.line) = some (.damaged cause) by
    obtain ⟨cause, damaged⟩ := this
    exact ⟨cause, by simp [items, alone, damaged]⟩
  unfold Item.ofLine?
  split
  · exact ⟨_, rfl⟩
  · next text read =>
    have ascii : Ascii (r.render ++ ['\n']) :=
      Ascii.append (Record.ascii_render r) (Record.IsEnd.ascii (.inr rfl))
    obtain ⟨before, rfl, front⟩ :=
      Utf8.exists_of_encode_append ascii (Utf8.decode_eq_ok.mp read).symm
    have glued : before ≠ [] := by
      rintro rfl
      exact nonempty front
    have trimmed : trimEnd (before ++ (r.render ++ ['\n'])) = before ++ r.render := by
      rw [← List.append_assoc]
      exact Record.trimEnd_behind before (Record.spelled_render r).ne_nil (Record.visible_render r)
        (Record.IsEnd.blank (.inr rfl))
    have unspelled : ∀ s : Record, Record.parse (before ++ (r.render ++ ['\n'])) ≠ .ok s := by
      intro s parsed
      rw [Record.parse_eq_ok, trimmed] at parsed
      exact parsed.not_glued glued (Record.spelled_render r).ne_nil List.prefix_rfl
    have visible : allBlank (before ++ (r.render ++ ['\n'])) = false := by
      rw [← Bool.not_eq_true, ← trimEnd_eq_nil, trimmed]
      simp [glued]
    unfold Item.ofText
    rcases parsed : Record.parse (before ++ (r.render ++ ['\n'])) with cause | s
    · exact ⟨.notRecord cause, by simp [visible]⟩
    · exact absurd parsed (unspelled s)

end PageJournal.Log
