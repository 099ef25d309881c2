import Mathlib.Algebra.GroupWithZero.Nat
import PageJournal.Checkpoint.Record
import PageJournal.Proofs.Lists
import PageJournal.Proofs.Log.Scan

/-! The lines that are read as checkpoint records. A line is accepted exactly when it is the four labelled
numerals with blanks or further fields behind them, and the thread is the low 32 bits of its numeral. So a
record's own line is always read back, and a line that spells no record is taken for one exactly when it has
a field too many or a thread that no 32 bits hold. -/
namespace PageJournal.Checkpoint

open Text
open Log.Record (IsVisible mem_intercalate_bar trimEnd_visible visible_of_all)

/-- Texts for the numbers of a record. -/
structure Numerals where
  timestamp : List Char
  thread : List Char
  dirtyPages : List Char
  watermark : List Char

namespace Numerals

/-- Each text is a numeral of the number of the record. -/
structure Write (n : Numerals) (r : Record) : Prop where
  timestamp : IsNumeral n.timestamp r.timestamp.toNat
  thread : IsNumeral n.thread r.thread.toNat
  dirtyPages : IsNumeral n.dirtyPages r.dirtyPages.toNat
  watermark : IsNumeral n.watermark r.watermark.toNat

/-- What becomes of numerals of 64 bits: all of them are kept but for the thread, of which the low half is. -/
structure Give (n : Numerals) (r : Record) : Prop where
  timestamp : IsNumeral n.timestamp r.timestamp.toNat
  thread : ∃ m, IsNumeral n.thread m ∧ m < 2 ^ 64 ∧ r.thread.toNat = m % 2 ^ 32
  dirtyPages : IsNumeral n.dirtyPages r.dirtyPages.toNat
  watermark : IsNumeral n.watermark r.watermark.toNat

def line (n : Numerals) : List Char :=
  "CHECKPOINT|TS:".toList ++ n.timestamp ++ "|THREAD:".toList ++ n.thread ++
    "|DIRTY:".toList ++ n.dirtyPages ++ "|LSN:".toList ++ n.watermark

/-- The fields of that line. -/
def fields (n : Numerals) : List (List Char) :=
  [Record.heading, "TS:".toList ++ n.timestamp, "THREAD:".toList ++ n.thread,
    "DIRTY:".toList ++ n.dirtyPages, "LSN:".toList ++ n.watermark]

theorem line_eq (n : Numerals) : n.line = ['|'].intercalate n.fields := by
  have first : "CHECKPOINT|TS:".toList = Record.heading ++ '|' :: "TS:".toList := by decide
  have second : "|THREAD:".toList = '|' :: "THREAD:".toList := rfl
  have third : "|DIRTY:".toList = '|' :: "DIRTY:".toList := rfl
  have fourth : "|LSN:".toList = '|' :: "LSN:".toList := rfl
  unfold line
  rw [first, second, third, fourth, fields, intercalate_cons]
  simp only [List.flatMap_cons, List.flatMap_nil, List.append_assoc, List.cons_append, List.append_nil]

/-- Further fields stand behind the line. -/
theorem intercalate_fields (n : Numerals) (rest : List (List Char)) :
    ['|'].intercalate (n.fields ++ rest) = n.line ++ rest.flatMap ('|' :: ·) := by
  rw [line_eq, fields, List.cons_append, intercalate_cons, intercalate_cons, List.flatMap_append,
    List.append_assoc]

/-- The numerals that a record's own line is written with. -/
def shortest (r : Record) : Numerals where
  timestamp := decimal r.timestamp.toNat
  thread := decimal r.thread.toNat
  dirtyPages := decimal r.dirtyPages.toNat
  watermark := decimal r.watermark.toNat

theorem shortest_write (r : Record) : (shortest r).Write r where
  timestamp := isNumeral_decimal _
  thread := isNumeral_decimal _
  dirtyPages := isNumeral_decimal _
  watermark := isNumeral_decimal _

variable {n m : Numerals} {r : Record}

theorem Write.give (writes : n.Write r) : n.Give r where
  timestamp := writes.timestamp
  thread := by
    have small : r.thread.toNat < 2 ^ 32 := r.thread.toNat_lt
    exact ⟨_, writes.thread, by omega, (Nat.mod_eq_of_lt small).symm⟩
  dirtyPages := writes.dirtyPages
  watermark := writes.watermark

/-- Letters, colons, plus signs and digits are visible, and none of them is a bar. -/
theorem mem_labelled_numeral {label : String} {s : List Char} {k : Nat} (spelled : IsNumeral s k)
    (bar : '|' ∉ label.toList)
    (visible : (label.toList.all fun c => 32 < c.toNat && c.toNat < 128) = true) :
    '|' ∉ label.toList ++ s ∧ ∀ c ∈ label.toList ++ s, IsVisible c := by
  have digits := mem_of_isNumeral spelled
  constructor
  · have apart : '|' ∉ s := not_mem_numeral digits (by decide) (by decide)
    exact fun mem => (List.mem_append.mp mem).elim bar apart
  · intro c mem
    obtain mem | mem := List.mem_append.mp mem
    · exact visible_of_all visible c mem
    · obtain rfl | digit := digits c mem
      · exact ⟨by decide, by decide⟩
      · have range := toNat_lt_of_isDigit digit
        exact ⟨by omega, by omega⟩

theorem Give.mem_fields (gives : n.Give r) :
    ∀ text ∈ n.fields, '|' ∉ text ∧ ∀ c ∈ text, IsVisible c := by
  obtain ⟨m, thread, -, -⟩ := gives.thread
  have heading : '|' ∉ Record.heading ∧ ∀ c ∈ Record.heading, IsVisible c :=
    ⟨by decide, visible_of_all (by rfl)⟩
  simp only [fields, List.forall_mem_cons, List.not_mem_nil, false_implies, implies_true, and_true]
  exact ⟨heading, mem_labelled_numeral gives.timestamp (by decide) (by rfl),
    mem_labelled_numeral thread (by decide) (by rfl),
    mem_labelled_numeral gives.dirtyPages (by decide) (by rfl),
    mem_labelled_numeral gives.watermark (by decide) (by rfl)⟩

theorem Give.visible (gives : n.Give r) : ∀ c ∈ n.line, IsVisible c := by
  intro c mem
  rw [line_eq] at mem
  rcases mem_intercalate_bar mem with rfl | ⟨text, member, mem⟩
  · exact ⟨by decide, by decide⟩
  · exact (gives.mem_fields text member).2 c mem

theorem Give.splitOn_line (gives : n.Give r) : n.line.splitOn '|' = n.fields := by
  rw [line_eq]
  exact List.splitOn_intercalate '|' (fun text mem => (gives.mem_fields text mem).1) (by simp [fields])

end Numerals

/-- What is passed over at the end of a line: blanks, or further fields. -/
def PassedOver (behind : List Char) : Prop :=
  (∀ c ∈ behind, isBlank c = true) ∨ behind.head? = some '|'

namespace Record

/-- The text is a line of the record. -/
def IsLine (r : Record) (text : List Char) : Prop := ∃ n : Numerals, n.Write r ∧ text = n.line

theorem isLine_render (r : Record) : r.IsLine r.render :=
  ⟨.shortest r, Numerals.shortest_write r, (Numerals.line_eq (.shortest r)).symm⟩

theorem visible_render (r : Record) : ∀ c ∈ r.render, IsVisible c := by
  obtain ⟨n, writes, own⟩ := r.isLine_render
  rw [own]
  exact writes.give.visible

/-- Each record is one line. -/
theorem count_line (r : Record) : r.line.count Log.lineFeed = 1 := by
  have noFeed := Log.Record.noFeed_visible r.visible_render
  rw [line, Text.Utf8.encode_append, List.count_append, List.count_eq_zero_of_not_mem noFeed]
  rfl

variable {n : Numerals} {r : Record} {line behind : List Char}

/-- The fields of a line that begins with the four numerals, and how many there are. -/
theorem splitOn_passedOver (gives : n.Give r) (passed : PassedOver behind) :
    ∃ rest, (trimEnd (n.line ++ behind)).splitOn '|' = n.fields ++ rest ∧
      (rest = [] ↔ ∀ c ∈ behind, isBlank c = true) := by
  rcases passed with blank | bar
  · refine ⟨[], ?_, iff_of_true rfl blank⟩
    rw [trimEnd_visible gives.visible blank, gives.splitOn_line, List.append_nil]
  · obtain ⟨more, rfl⟩ : ∃ more, behind = '|' :: more := List.head?_eq_some_iff.mp bar
    have trimmed : trimEnd (n.line ++ '|' :: more) = n.line ++ '|' :: trimEnd more :=
      dropTrailing_append_cons (by decide) _ _
    have cut : (n.line ++ '|' :: trimEnd more).splitOn '|' =
        n.line.splitOn '|' ++ (trimEnd more).splitOn '|' :=
      List.splitOnP_append_cons _ _ (beq_self_eq_true _)
    refine ⟨(trimEnd more).splitOn '|', by rw [trimmed, cut, gives.splitOn_line],
      iff_of_false (List.splitOnP_ne_nil _ _) ?_⟩
    intro blank
    exact absurd (blank '|' List.mem_cons_self) (by decide)

theorem takeNumber_eq_some {label : String} {texts rest : List (List Char)} {k : UInt64} :
    takeNumber label texts = some (k, rest) ↔
      ∃ value, texts = (label.toList ++ value) :: rest ∧ IsNumeral value k.toNat := by
  cases texts with
  | nil => simp [takeNumber]
  | cons text others =>
    simp only [takeNumber, Option.bind_eq_bind, Option.bind_eq_some_iff,
      List.isPrefixOf?_eq_some_iff_append_eq, word64_eq_some, Option.some.injEq, Prod.mk.injEq, List.cons.injEq]
    constructor
    · rintro ⟨value, spelled, _, numeral, rfl, rfl⟩
      exact ⟨value, ⟨spelled.symm, rfl⟩, numeral⟩
    · rintro ⟨value, ⟨spelled, rfl⟩, numeral⟩
      exact ⟨value, spelled.symm, k, numeral, rfl, rfl⟩

/-- A line is read by its first five fields. -/
theorem parse_eq_some_fields : parse line = some r ↔
    ∃ (n : Numerals) (rest : List (List Char)), n.Give r ∧
      (trimEnd line).splitOn '|' = n.fields ++ rest := by
  unfold parse
  split
  · next none => exact absurd none (List.splitOnP_ne_nil _ _)
  · next first texts cut =>
    rw [cut]
    split
    · next same =>
      simp only [Option.bind_eq_bind, Option.bind_eq_some_iff, Prod.exists, takeNumber_eq_some]
      constructor
      · rintro ⟨ts, _, ⟨timestamp, rfl, h₁⟩, th, _, ⟨thread, rfl, h₂⟩, dirty, _,
          ⟨dirtyPages, rfl, h₃⟩, mark, rest, ⟨watermark, rfl, h₄⟩, ⟨⟩⟩
        refine ⟨⟨timestamp, thread, dirtyPages, watermark⟩, rest,
          ⟨h₁, ⟨_, h₂, th.toNat_lt, th.toNat_toUInt32⟩, h₃, h₄⟩, ?_⟩
        rw [same]
        rfl
      · rintro ⟨n, rest, gives, fields⟩
        obtain ⟨m, thread, word, low⟩ := gives.thread
        obtain ⟨-, rfl⟩ := List.cons.inj fields
        have whole : (UInt64.ofNat m).toNat = m := UInt64.toNat_ofNat_of_lt' word
        refine ⟨_, _, ⟨_, rfl, gives.timestamp⟩, .ofNat m, _, ⟨_, rfl, whole.symm ▸ thread⟩, _, _,
          ⟨_, rfl, gives.dirtyPages⟩, _, _, ⟨_, rfl, gives.watermark⟩, ?_⟩
        have cutOff : (UInt64.ofNat m).toUInt32 = r.thread := by
          rw [← UInt32.toNat_inj, UInt64.toNat_toUInt32, whole, low]
        rw [cutOff]
    · next other =>
      simp only [reduceCtorEq, false_iff, not_exists, not_and]
      intro n rest _ fields
      exact other (List.cons.inj fields).1

/-- The lines that are read as a record: its four labelled numerals, and what is passed over. -/
theorem parse_eq_some_iff : parse line = some r ↔
    ∃ (n : Numerals) (behind : List Char), n.Give r ∧ PassedOver behind ∧ line = n.line ++ behind := by
  rw [parse_eq_some_fields]
  constructor
  · rintro ⟨n, rest, gives, cut⟩
    obtain ⟨blanks, whole, blank⟩ := exists_append_dropTrailing isBlank line
    have trimmed : trimEnd line = n.line ++ rest.flatMap ('|' :: ·) := by
      rw [← Numerals.intercalate_fields, ← cut]
      exact (List.intercalate_splitOn '|').symm
    refine ⟨n, rest.flatMap ('|' :: ·) ++ blanks, gives, ?_, ?_⟩
    · cases rest with
      | nil => exact .inl blank
      | cons text others => exact .inr rfl
    · rw [← List.append_assoc, ← trimmed]
      exact whole.symm
  · rintro ⟨n, behind, gives, passed, rfl⟩
    obtain ⟨rest, cut, -⟩ := splitOn_passedOver gives passed
    exact ⟨n, rest, gives, cut⟩

theorem read_eq_ok : read line = .ok r ↔ parse line = some r := by
  unfold read
  cases parse line <;> simp

/-- A line that is read as a record is a line of that record unless something follows its four numerals
or the thread has more than 32 bits. -/
theorem isLine_iff_of_give (gives : n.Give r) (passed : PassedOver behind) :
    r.IsLine (trimEnd (n.line ++ behind)) ↔
      (∀ c ∈ behind, isBlank c = true) ∧ ∃ k < 2 ^ 32, IsNumeral n.thread k := by
  constructor
  · rintro ⟨m, writes, same⟩
    obtain ⟨rest, cut, ended⟩ := splitOn_passedOver gives passed
    rw [same, writes.give.splitOn_line] at cut
    rw [← List.append_nil m.fields] at cut
    obtain ⟨fields, left⟩ := List.append_inj cut rfl
    have thread : m.thread = n.thread := by
      simp only [Numerals.fields, List.cons.injEq, List.append_cancel_left_eq] at fields
      exact fields.2.2.1
    exact ⟨ended.mp left.symm, _, r.thread.toNat_lt, thread ▸ writes.thread⟩
  · rintro ⟨blank, k, small, numeral⟩
    refine ⟨n, ⟨gives.timestamp, ?_, gives.dirtyPages, gives.watermark⟩,
      trimEnd_visible gives.visible blank⟩
    obtain ⟨m, thread, -, low⟩ := gives.thread
    obtain rfl : k = m := numeral.unique thread
    rw [low, Nat.mod_eq_of_lt small]
    exact numeral

theorem read_of_isLine (spelled : r.IsLine (trimEnd line)) : read line = .ok r := by
  obtain ⟨n, writes, same⟩ := spelled
  obtain ⟨blanks, whole, blank⟩ := exists_append_dropTrailing isBlank line
  refine read_eq_ok.mpr (parse_eq_some_iff.mpr ⟨n, blanks, writes.give, .inl blank, ?_⟩)
  rw [← same]
  exact whole.symm

/-- Reading inverts writing and keeps the numbers of every line of a record, and it is exactly this much too
lax: it passes over what stands behind a fourth field, and of a thread it takes the low 32 bits. All other
lines are refused with the line in the message. -/
theorem read_takes_fields (line : List Char) (r : Record) :
    (∀ blanks : List Char, (∀ c ∈ blanks, isBlank c = true) → read (r.render ++ blanks) = .ok r) ∧
    (r.IsLine (trimEnd line) → read line = .ok r) ∧
    (read line = .ok r ↔ ∃ (n : Numerals) (behind : List Char),
      n.Give r ∧ PassedOver behind ∧ line = n.line ++ behind) ∧
    (∀ (n : Numerals) (behind : List Char), n.Give r → PassedOver behind → line = n.line ++ behind →
      (r.IsLine (trimEnd line) ↔
        (∀ c ∈ behind, isBlank c = true) ∧ ∃ k < 2 ^ 32, IsNumeral n.thread k)) ∧
    ((∃ r, read line = .ok r) ∨ read line = .error (.logCorruption
      s!"Invalid checkpoint line: {String.ofList (quoted line)}")) := by
  refine ⟨fun blanks blank => ?_, read_of_isLine, read_eq_ok.trans parse_eq_some_iff, ?_, ?_⟩
  · apply read_of_isLine
    rw [trimEnd_visible r.visible_render blank]
    exact isLine_render r
  · rintro n behind gives passed rfl
    exact isLine_iff_of_give gives passed
  · unfold read
    cases parse line <;> simp

/-- A plus sign, leading zeros and the end of the line do no harm. -/
theorem read_takes_fields_plus_zeros :
    read ("CHECKPOINT|TS:+1000|THREAD:01|DIRTY:3|LSN:42".toList ++ ['\r', '\n']) =
      .ok ⟨1000, 1, 3, 42⟩ := by
  have blank : ∀ c ∈ ['\r', '\n'], isBlank c = true := by simp [isBlank]
  let n : Numerals := ⟨"+1000".toList, "01".toList, "3".toList, "42".toList⟩
  have writes : n.Write ⟨1000, 1, 3, 42⟩ := by
    constructor <;> exact numeral_eq_some.mp (by decide)
  exact (read_takes_fields _ _).2.2.1.mpr ⟨n, _, writes.give, .inl blank, rfl⟩

/-- The line is read as a record and spells none. -/
def Mistaken (line : List Char) (r : Record) : Prop :=
  read line = .ok r ∧ ∀ s : Record, ¬s.IsLine (trimEnd line)

theorem mistaken_iff (gives : n.Give r) (passed : PassedOver behind) :
    Mistaken (n.line ++ behind) r ↔
      ¬((∀ c ∈ behind, isBlank c = true) ∧ ∃ k < 2 ^ 32, IsNumeral n.thread k) := by
  have taken : read (n.line ++ behind) = .ok r :=
    read_eq_ok.mpr (parse_eq_some_iff.mpr ⟨n, behind, gives, passed, rfl⟩)
  rw [← isLine_iff_of_give gives passed, Mistaken]
  constructor
  · exact fun ⟨_, spellsNone⟩ => spellsNone r
  · intro notOfIt
    refine ⟨taken, fun s spelled => notOfIt ?_⟩
    obtain rfl : s = r := Except.ok.inj ((read_of_isLine spelled).symm.trans taken)
    exact spelled

/-- A thread number that 32 bits do not hold is read as another one, and a field too many is not noticed. -/
theorem read_lax :
    Mistaken "CHECKPOINT|TS:1000|THREAD:4294967297|DIRTY:3|LSN:42".toList ⟨1000, 1, 3, 42⟩ ∧
    Mistaken "CHECKPOINT|TS:1000|THREAD:1|DIRTY:3|LSN:42|X".toList ⟨1000, 1, 3, 42⟩ := by
  constructor
  · let n : Numerals := ⟨"1000".toList, "4294967297".toList, "3".toList, "42".toList⟩
    have thread : IsNumeral n.thread 4294967297 := numeral_eq_some.mp (by decide)
    have gives : n.Give ⟨1000, 1, 3, 42⟩ :=
      ⟨numeral_eq_some.mp (by decide), ⟨_, thread, by decide, by decide⟩,
        numeral_eq_some.mp (by decide), numeral_eq_some.mp (by decide)⟩
    have whole : "CHECKPOINT|TS:1000|THREAD:4294967297|DIRTY:3|LSN:42".toList = n.line ++ [] := by
      decide
    rw [whole]
    refine (mistaken_iff gives (.inl (List.forall_mem_nil _))).mpr fun ⟨_, k, small, other⟩ => ?_
    have same : 4294967297 = k := thread.unique other
    omega
  · let n : Numerals := ⟨"1000".toList, "1".toList, "3".toList, "42".toList⟩
    have writes : n.Write ⟨1000, 1, 3, 42⟩ := by
      constructor <;> exact numeral_eq_some.mp (by decide)
    have further : PassedOver ['|', 'X'] := .inr rfl
    have whole : "CHECKPOINT|TS:1000|THREAD:1|DIRTY:3|LSN:42|X".toList = n.line ++ ['|', 'X'] := by
      decide
    rw [whole]
    refine (mistaken_iff writes.give further).mpr fun ⟨blank, _⟩ => ?_
    exact absurd (blank '|' List.mem_cons_self) (by decide)

end Record

end PageJournal.Checkpoint
