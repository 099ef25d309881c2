import PageJournal.Proofs.Log.Glued
import PageJournal.Proofs.Log.Recovery
import PageJournal.Proofs.Log.Trail
import PageJournal.Proofs.Lists

/-! What one attempt to write a batch adds to a log that may end inside a line. The lines that it
gets out whole are read back, but the first of them is lost if it was glued to a torn one. -/
namespace PageJournal.Log

open Text

/-- A log that ends with visible text, which no line feed closes. -/
structure Torn (front : Bytes) (tail : List Char) (log : Bytes) : Prop where
  closed : Closed front
  visible : ∀ c ∈ tail, Record.IsVisible c
  whole : log = front ++ Utf8.encode tail

theorem encode_eq_nil {text : List Char} (visible : ∀ c ∈ text, Record.IsVisible c) :
    Utf8.encode text = [] ↔ text = [] := by
  rw [Utf8.encode_ascii fun c mem => (visible c mem).2, List.map_eq_nil_iff]

theorem Torn.closed_iff {front log : Bytes} {tail : List Char} (torn : Torn front tail log) :
    Closed log ↔ tail = [] := by
  rw [torn.whole]
  constructor
  · intro closed
    by_contra more
    have nonempty := mt (encode_eq_nil torn.visible).mp more
    exact not_closed_append nonempty (Record.noFeed_visible torn.visible) closed
  · rintro rfl
    exact closed_append torn.closed (.inl rfl)

/-- A line behind a torn one is no record any more. -/
theorem found_glued {tail : List Char} (visible : ∀ c ∈ tail, Record.IsVisible c)
    (nonempty : tail ≠ []) (r : Record) : found (Utf8.encode tail ++ r.line) = [] := by
  obtain ⟨cause, alone⟩ :=
    items_glued (mt (encode_eq_nil visible).mp nonempty) (Record.noFeed_visible visible) r
  simp [found, alone, Item.record?]

theorem count_line (r : Record) : r.line.count lineFeed = 1 := by
  rw [Record.line_eq, List.count_append, List.count_eq_zero_of_not_mem r.lineFeed_not_mem_text]
  rfl

theorem count_lines (rs : List Record) :
    (rs.flatMap Record.line).count lineFeed = rs.length := by
  induction rs with
  | nil => rfl
  | cons r rest ih =>
    rw [List.flatMap_cons, List.count_append, ih, count_line, List.length_cons, Nat.add_comm]

/-- A beginning of some lines is the first of them, as many as it has line feeds, and a beginning of
the text of the next. -/
theorem prefix_lines {rs : List Record} {taken : Bytes} (part : taken <+: rs.flatMap Record.line) :
    ∃ tail, (∀ c ∈ tail, Record.IsVisible c) ∧ taken.count lineFeed ≤ rs.length ∧
      taken = (rs.take (taken.count lineFeed)).flatMap Record.line ++ Utf8.encode tail := by
  induction rs generalizing taken with
  | nil =>
    rw [List.flatMap_nil, List.prefix_nil] at part
    subst part
    exact ⟨[], nofun, Nat.le_refl _, rfl⟩
  | cons r rest ih =>
    have inLine : ∀ text, text <+: r.render → taken = Utf8.encode text →
        ∃ tail, (∀ c ∈ tail, Record.IsVisible c) ∧ taken.count lineFeed ≤ (r :: rest).length ∧
          taken = ((r :: rest).take (taken.count lineFeed)).flatMap Record.line ++
            Utf8.encode tail := by
      intro text short same
      have visible : ∀ c ∈ text, Record.IsVisible c :=
        fun c mem => Record.visible_render r c (short.subset mem)
      have none : taken.count lineFeed = 0 := by
        rw [same]
        exact List.count_eq_zero_of_not_mem (Record.noFeed_visible visible)
      refine ⟨text, visible, by omega, ?_⟩
      rw [none, List.take_zero, same]
      rfl
    rw [List.flatMap_cons, Record.line_eq, List.append_assoc, List.singleton_append] at part
    rcases prefix_append_cases part with short | ⟨later, rfl, behind⟩
    · obtain ⟨text, start, same⟩ := Utf8.exists_of_prefix_encode (Record.ascii_render r) short
      exact inLine text start same
    · rcases List.prefix_cons_iff.mp behind with rfl | ⟨more, rfl, others⟩
      · exact inLine r.render List.prefix_rfl (List.append_nil _)
      · obtain ⟨tail, visible, few, same⟩ := ih others
        have split : r.text ++ lineFeed :: more = r.line ++ more := by
          rw [Record.line_eq, List.append_assoc]
          rfl
        have count : (r.text ++ lineFeed :: more).count lineFeed = more.count lineFeed + 1 := by
          rw [split, List.count_append, count_line, Nat.add_comm]
        refine ⟨tail, visible, ?_, ?_⟩
        · rw [count, List.length_cons]
          omega
        · rw [count, List.take_succ_cons, List.flatMap_cons, List.append_assoc, ← same, split]

/-- What an attempt adds to what is read, given whether it began a line of its own. -/
def yield (aligned : Bool) (whole : List Record) : List Record :=
  if aligned then whole else whole.drop 1

/-- An attempt leaves a torn log as a torn log, and its whole lines are read back. -/
theorem Torn.attempt {front log : Bytes} {tail : List Char} (torn : Torn front tail log)
    {rs : List Record} {taken : Bytes} (part : taken <+: rs.flatMap Record.line) :
    ∃ front' tail', Torn front' tail' (log ++ taken) ∧
      found front' =
        found front ++ yield (decide (Closed log)) (rs.take (taken.count lineFeed)) := by
  obtain ⟨last, visible, -, same⟩ := prefix_lines part
  generalize rs.take (taken.count lineFeed) = lines at same ⊢
  cases lines with
  | nil =>
    refine ⟨front, tail ++ last, ⟨torn.closed, ?_, ?_⟩, ?_⟩
    · intro c mem
      rcases List.mem_append.mp mem with mem | mem
      · exact torn.visible c mem
      · exact visible c mem
    · rw [same, torn.whole, Utf8.encode_append]
      simp
    · cases decide (Closed log) <;> simp [yield]
  | cons r rest =>
    have closed : Closed (Utf8.encode tail ++ r.line) := by
      rw [Record.line_eq, ← List.append_assoc]
      exact closed_concat _
    refine ⟨front ++ (Utf8.encode tail ++ r.line) ++ rest.flatMap Record.line, last,
      ⟨closed_append (closed_append torn.closed closed) (closed_lines rest), visible, ?_⟩, ?_⟩
    · rw [same, torn.whole]
      simp
    · rw [found_append (closed_append torn.closed closed), found_append torn.closed, found_lines]
      by_cases aligned : tail = []
      · have own : found (Utf8.encode tail ++ r.line) = [r] := by
          rw [aligned, ← List.append_nil r.line]
          exact found_lines [r]
        simp [own, yield, torn.closed_iff.mpr aligned]
      · have lost := found_glued torn.visible aligned r
        simp [lost, yield, mt torn.closed_iff.mp aligned]

end PageJournal.Log
