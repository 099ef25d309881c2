import Mathlib.Data.List.Basic
import PageJournal.Log.Record
import PageJournal.Proofs.Outcome
import PageJournal.Proofs.Text.Numeral

/-! The grammar of record lines. A line is read as a record exactly when it spells one, and of
what a record's own line begins with only the whole of it spells a record. Gluing the beginnings
of several lines together never spells one either. -/
namespace PageJournal.Log

open Text

/-- Texts for the numbers of a record. -/
structure Numerals where
  transaction : List Char
  lsn : List Char
  thread : List Char
  page : List Char
  size : List Char
  timestamp : List Char

namespace Numerals

/-- Each text reads as the number of the record. -/
structure Denotes (n : Numerals) (r : Record) : Prop where
  transaction : word64 n.transaction = some r.transaction
  lsn : word64 n.lsn = some r.lsn
  thread : word32 n.thread = some r.thread
  page : word32 n.page = some r.page
  size : word64 n.size = some r.size
  timestamp : word64 n.timestamp = some r.timestamp

/-- The fields of a record, its numbers written with the given texts. -/
def texts (n : Numerals) (r : Record) : List (List Char) :=
  [Record.labelled .transaction n.transaction, Record.labelled .lsn n.lsn,
    Record.labelled .thread n.thread, Record.labelled .operation r.operation.name.toList,
    Record.labelled .page n.page, Record.labelled .size n.size,
    Record.labelled .timestamp n.timestamp, Record.labelled .committed (Record.flag r.committed)]

/-- The numerals that a record's own line is written with. -/
def shortest (r : Record) : Numerals where
  transaction := decimal r.transaction.toNat
  lsn := decimal r.lsn.toNat
  thread := decimal r.thread.toNat
  page := decimal r.page.toNat
  size := decimal r.size.toNat
  timestamp := decimal r.timestamp.toNat

theorem shortest_denotes (r : Record) : (shortest r).Denotes r where
  transaction := word64_decimal _
  lsn := word64_decimal _
  thread := word32_decimal _
  page := word32_decimal _
  size := word64_decimal _
  timestamp := word64_decimal _

end Numerals

namespace Record

/-- The text is a line of the record, whichever numerals it uses. -/
def Spelled (r : Record) (text : List Char) : Prop :=
  ∃ n : Numerals, n.Denotes r ∧ text = ['|'].intercalate (n.texts r)

theorem spelled_render (r : Record) : r.Spelled r.render :=
  ⟨.shortest r, Numerals.shortest_denotes r, rfl⟩

theorem value?_eq_some {field : Field} {text value : List Char} :
    value? field text = some value ↔ text = labelled field value := by
  rw [value?, List.isPrefixOf?_eq_some_iff_append_eq, labelled, List.append_assoc, eq_comm]
  rfl

theorem takeField_eq_ok {line : List Char} {field : Field} {texts : List (List Char)}
    {value : List Char} {rest : List (List Char)} :
    takeField line field texts = .ok (value, rest) ↔ texts = labelled field value :: rest := by
  cases texts with
  | nil => simp [takeField]
  | cons text texts =>
    rw [takeField]
    split
    · next found h =>
      have spelled : text = labelled field found := value?_eq_some.mp h
      have inj : labelled field found = labelled field value ↔ found = value := by
        simp [labelled]
      simp [spelled, inj]
    · next h =>
      have differs : text ≠ labelled field value := by
        intro same
        rw [value?_eq_some.mpr same] at h
        contradiction
      simp [differs]

theorem takeWord64_eq_ok {line : List Char} {field : Field} {texts : List (List Char)}
    {n : UInt64} {rest : List (List Char)} :
    takeWord64 line field texts = .ok (n, rest) ↔
      ∃ value, texts = labelled field value :: rest ∧ word64 value = some n := by
  rw [takeWord64, bind_eq_ok]
  constructor
  · rintro ⟨⟨value, others⟩, taken, h⟩
    dsimp only at h
    split at h
    · next m read =>
      cases h
      exact ⟨value, takeField_eq_ok.mp taken, read⟩
    · contradiction
  · rintro ⟨value, spelled, read⟩
    refine ⟨(value, rest), takeField_eq_ok.mpr spelled, ?_⟩
    simp [read]

theorem takeWord32_eq_ok {line : List Char} {field : Field} {texts : List (List Char)}
    {n : UInt32} {rest : List (List Char)} :
    takeWord32 line field texts = .ok (n, rest) ↔
      ∃ value, texts = labelled field value :: rest ∧ word32 value = some n := by
  rw [takeWord32, bind_eq_ok]
  constructor
  · rintro ⟨⟨value, others⟩, taken, h⟩
    dsimp only at h
    split at h
    · next m read =>
      cases h
      exact ⟨value, takeField_eq_ok.mp taken, read⟩
    · contradiction
  · rintro ⟨value, spelled, read⟩
    refine ⟨(value, rest), takeField_eq_ok.mpr spelled, ?_⟩
    simp [read]

theorem ofName?_eq_some {name : List Char} {o : Operation} :
    Operation.ofName? name = some o ↔ name = o.name.toList := by
  constructor
  · intro h
    have found := List.find?_some h
    exact (beq_iff_eq.mp found).symm
  · rintro rfl
    exact Operation.ofName?_name o

theorem takeOperation_eq_ok {line : List Char} {texts : List (List Char)} {o : Operation}
    {rest : List (List Char)} :
    takeOperation line texts = .ok (o, rest) ↔
      texts = labelled .operation o.name.toList :: rest := by
  rw [takeOperation, bind_eq_ok]
  constructor
  · rintro ⟨⟨value, others⟩, taken, h⟩
    dsimp only at h
    split at h
    · next found read =>
      cases h
      exact ofName?_eq_some.mp read ▸ takeField_eq_ok.mp taken
    · contradiction
  · intro spelled
    refine ⟨(o.name.toList, rest), takeField_eq_ok.mpr spelled, ?_⟩
    simp [Operation.ofName?_name]

theorem takeFlag_eq_ok {line : List Char} {texts : List (List Char)} {b : Bool}
    {rest : List (List Char)} :
    takeFlag line texts = .ok (b, rest) ↔ texts = labelled .committed (flag b) :: rest := by
  rw [takeFlag, bind_eq_ok]
  constructor
  · rintro ⟨⟨value, others⟩, taken, h⟩
    have spelled := takeField_eq_ok.mp taken
    dsimp only at h
    split at h
    · next yes =>
      cases h
      exact yes ▸ spelled
    · split at h
      · next no =>
        cases h
        exact no ▸ spelled
      · contradiction
  · intro spelled
    refine ⟨(flag b, rest), takeField_eq_ok.mpr spelled, ?_⟩
    cases b <;> rfl

theorem bar_not_mem_labelled {field : Field} {value : List Char} (h : '|' ∉ value) :
    '|' ∉ labelled field value := by
  have label : '|' ∉ field.label.toList := by cases field <;> decide
  simp [labelled, h, label]

theorem bar_not_mem_word64 {s : List Char} {n : UInt64} (h : word64 s = some n) : '|' ∉ s :=
  not_mem_numeral (mem_of_word64 h) (by decide) (by decide)

theorem bar_not_mem_word32 {s : List Char} {n : UInt32} (h : word32 s = some n) : '|' ∉ s :=
  not_mem_numeral (mem_of_word32 h) (by decide) (by decide)

theorem bar_not_mem_texts {n : Numerals} {r : Record} (denotes : n.Denotes r) :
    ∀ text ∈ n.texts r, '|' ∉ text := by
  have name : '|' ∉ r.operation.name.toList := by cases r.operation <;> decide
  have ending : '|' ∉ flag r.committed := by cases r.committed <;> decide
  simp only [Numerals.texts, List.forall_mem_cons, List.not_mem_nil, false_implies,
    implies_true, and_true]
  exact ⟨bar_not_mem_labelled (bar_not_mem_word64 denotes.transaction),
    bar_not_mem_labelled (bar_not_mem_word64 denotes.lsn),
    bar_not_mem_labelled (bar_not_mem_word32 denotes.thread), bar_not_mem_labelled name,
    bar_not_mem_labelled (bar_not_mem_word32 denotes.page),
    bar_not_mem_labelled (bar_not_mem_word64 denotes.size),
    bar_not_mem_labelled (bar_not_mem_word64 denotes.timestamp), bar_not_mem_labelled ending⟩

/-- A line is read as a record exactly when it spells one, up to blanks at its end. -/
theorem parse_eq_ok {line : List Char} {r : Record} :
    parse line = .ok r ↔ r.Spelled (trimEnd line) := by
  constructor
  · intro h
    simp only [parse, bind_eq_ok, Prod.exists, takeWord64_eq_ok, takeWord32_eq_ok,
      takeOperation_eq_ok, takeFlag_eq_ok] at h
    obtain ⟨_, _, ⟨transaction, split₁, h₁⟩, _, _, ⟨lsn, split₂, h₂⟩, _, _,
      ⟨thread, split₃, h₃⟩, _, _, split₄, _, _, ⟨page, split₅, h₅⟩, _, _, ⟨size, split₆, h₆⟩,
      _, _, ⟨timestamp, split₇, h₇⟩, _, rest, split₈, h⟩ := h
    split at h
    · next last =>
      cases h
      refine ⟨⟨transaction, lsn, thread, page, size, timestamp⟩, ⟨h₁, h₂, h₃, h₅, h₆, h₇⟩, ?_⟩
      have joined : ['|'].intercalate ((trimEnd line).splitOn '|') = trimEnd line :=
        List.intercalate_splitOn '|'
      rw [List.isEmpty_iff.mp last] at split₈
      rw [← joined, split₁, split₂, split₃, split₄, split₅, split₆, split₇, split₈]
      rfl
    · contradiction
  · rintro ⟨n, denotes, spelled⟩
    have cut : (trimEnd line).splitOn '|' = n.texts r := by
      rw [spelled]
      exact List.splitOn_intercalate '|' (bar_not_mem_texts denotes) (by simp [Numerals.texts])
    unfold parse
    refine bind_eq_ok.mpr ⟨(_, _), takeWord64_eq_ok.mpr ⟨_, cut, denotes.transaction⟩, ?_⟩
    refine bind_eq_ok.mpr ⟨(_, _), takeWord64_eq_ok.mpr ⟨_, rfl, denotes.lsn⟩, ?_⟩
    refine bind_eq_ok.mpr ⟨(_, _), takeWord32_eq_ok.mpr ⟨_, rfl, denotes.thread⟩, ?_⟩
    refine bind_eq_ok.mpr ⟨(_, _), takeOperation_eq_ok.mpr rfl, ?_⟩
    refine bind_eq_ok.mpr ⟨(_, _), takeWord32_eq_ok.mpr ⟨_, rfl, denotes.page⟩, ?_⟩
    refine bind_eq_ok.mpr ⟨(_, _), takeWord64_eq_ok.mpr ⟨_, rfl, denotes.size⟩, ?_⟩
    refine bind_eq_ok.mpr ⟨(_, _), takeWord64_eq_ok.mpr ⟨_, rfl, denotes.timestamp⟩, ?_⟩
    exact bind_eq_ok.mpr ⟨(_, _), takeFlag_eq_ok.mpr rfl, rfl⟩

end Record

end PageJournal.Log
