import PageJournal.Proofs.Log.Line

/-! The lines that are read as records, spelled out. A line is accepted exactly when it is eight
labelled fields and blanks, and its numerals, operation and flag are then what the record holds;
any other line is a complaint about the log. -/
namespace PageJournal.Log

open Text

namespace Numerals

/-- Each text is a numeral of the number of the record. -/
structure Write (n : Numerals) (r : Record) : Prop where
  transaction : IsNumeral n.transaction r.transaction.toNat
  lsn : IsNumeral n.lsn r.lsn.toNat
  thread : IsNumeral n.thread r.thread.toNat
  page : IsNumeral n.page r.page.toNat
  size : IsNumeral n.size r.size.toNat
  timestamp : IsNumeral n.timestamp r.timestamp.toNat

theorem denotes_iff_write {n : Numerals} {r : Record} : n.Denotes r ↔ n.Write r := by
  constructor
  · intro ⟨transaction, lsn, thread, page, size, timestamp⟩
    constructor
    · exact word64_eq_some.mp transaction
    · exact word64_eq_some.mp lsn
    · exact word32_eq_some.mp thread
    · exact word32_eq_some.mp page
    · exact word64_eq_some.mp size
    · exact word64_eq_some.mp timestamp
  · intro ⟨transaction, lsn, thread, page, size, timestamp⟩
    constructor
    · exact word64_eq_some.mpr transaction
    · exact word64_eq_some.mpr lsn
    · exact word32_eq_some.mpr thread
    · exact word32_eq_some.mpr page
    · exact word64_eq_some.mpr size
    · exact word64_eq_some.mpr timestamp

end Numerals

namespace Record

/-- The text is a line of the record. -/
def IsLine (r : Record) (text : List Char) : Prop :=
  ∃ n : Numerals, n.Write r ∧
    text = "TXN:".toList ++ n.transaction ++ "|LSN:".toList ++ n.lsn ++
      "|THREAD:".toList ++ n.thread ++ "|OP:".toList ++ r.operation.name.toList ++
      "|PAGE:".toList ++ n.page ++ "|SIZE:".toList ++ n.size ++ "|TS:".toList ++ n.timestamp ++
      "|COMMITTED:".toList ++ (if r.committed then "YES" else "NO").toList

theorem isLine_iff {r : Record} {text : List Char} : r.IsLine text ↔ r.Spelled text := by
  have flag : flag r.committed = (if r.committed then "YES" else "NO").toList := by
    cases r.committed <;> rfl
  simp [IsLine, Spelled, Numerals.denotes_iff_write, Numerals.texts, List.intercalate,
    List.intersperse, labelled, Field.label, flag]

/-- Nothing of a record's line is lost when the blanks behind it are. -/
theorem Spelled.trimEnd_eq {r : Record} {text blanks : List Char} (h : r.Spelled text)
    (blank : ∀ c ∈ blanks, isBlank c = true) : trimEnd (text ++ blanks) = text := by
  obtain ⟨front, shape, -⟩ := h.shape
  have visible : ∀ b, ∀ c ∈ '|' :: labelled .committed (Record.flag b), IsVisible c := by
    intro b
    apply visible_of_all
    cases b <;> rfl
  simp only [shape]
  exact trimEnd_behind _ (by simp) (visible r.committed) blank

theorem parse_eq_ok_iff {line : List Char} {r : Record} :
    parse line = .ok r ↔
      ∃ text blanks, line = text ++ blanks ∧ (∀ c ∈ blanks, isBlank c = true) ∧ r.IsLine text := by
  simp only [parse_eq_ok, isLine_iff]
  constructor
  · intro spelled
    obtain ⟨blanks, whole, blank⟩ := exists_append_dropTrailing isBlank line
    exact ⟨trimEnd line, blanks, whole.symm, blank, spelled⟩
  · rintro ⟨text, blanks, rfl, blank, spelled⟩
    simpa only [spelled.trimEnd_eq blank] using spelled

theorem read_eq_ok {line : List Char} {r : Record} : read line = .ok r ↔ parse line = .ok r := by
  unfold read
  cases parse line <;> simp [Except.mapError]

theorem read_ok_or_corruption (line : List Char) :
    (∃ r, read line = .ok r) ∨ ∃ message, read line = .error (.logCorruption message) := by
  unfold read
  cases parse line <;> simp [Except.mapError]

/-- Reading inverts writing and takes exactly the lines of records, up to blanks at the end. -/
theorem read_exactly_lines :
    (∀ (r : Record) (blanks : List Char), (∀ c ∈ blanks, isBlank c = true) →
      read (r.render ++ blanks) = .ok r) ∧
    (∀ (line : List Char) (r : Record), read line = .ok r ↔
      ∃ text blanks, line = text ++ blanks ∧ (∀ c ∈ blanks, isBlank c = true) ∧ r.IsLine text) ∧
    (∀ (line : List Char) (r : Record), read line = .ok r → read r.render = .ok r) ∧
    (∀ line : List Char,
      (¬∃ r text blanks, line = text ++ blanks ∧ (∀ c ∈ blanks, isBlank c = true) ∧
        Record.IsLine r text) → ∃ message, read line = .error (.logCorruption message)) := by
  have written : ∀ (r : Record) (blanks : List Char), (∀ c ∈ blanks, isBlank c = true) →
      read (r.render ++ blanks) = .ok r := fun r _ blank => read_eq_ok.mpr (parse_render r blank)
  have exact : ∀ (line : List Char) (r : Record), read line = .ok r ↔
      ∃ text blanks, line = text ++ blanks ∧ (∀ c ∈ blanks, isBlank c = true) ∧ r.IsLine text :=
    fun _ _ => read_eq_ok.trans parse_eq_ok_iff
  constructor
  · exact written
  constructor
  · exact exact
  constructor
  · intro _ r _
    simpa using written r [] (by simp)
  · intro line other
    obtain ⟨r, taken⟩ | refused := read_ok_or_corruption line
    · exact absurd ⟨r, (exact line r).mp taken⟩ other
    · exact refused

/-- A plus sign, leading zeros and a no-break space behind the line do no harm. -/
theorem read_plus_zeros_blank :
    read ("TXN:+07|LSN:13|THREAD:2|OP:UPDATE|PAGE:4|SIZE:0|TS:00|COMMITTED:NO".toList ++
      ['\u00a0', '\n']) = .ok ⟨7, 13, 2, .update, 4, 0, 0, false⟩ := by
  have numeral : ∀ s n, Text.numeral s = some n → IsNumeral s n := fun _ _ => numeral_eq_some.mp
  have blank : ∀ c ∈ ['\u00a0', '\n'], isBlank c = true := by simp [isBlank]
  refine (read_exactly_lines.2.1 _ _).mpr ⟨_, ['\u00a0', '\n'], rfl, blank,
    ⟨"+07".toList, "13".toList, "2".toList, "4".toList, "0".toList, "00".toList⟩, ?_, rfl⟩
  constructor <;> exact numeral _ _ (by decide)

end Record

end PageJournal.Log
