import PageJournal.Proofs.Log.Recovery
import PageJournal.Proofs.Lists

/-! A log that is cut off anywhere. A record is read back exactly if the text of its line is there;
what is left of the next line is damaged. -/
namespace PageJournal.Log

open Text

/-- A strict beginning of a record's line holds no record. -/
theorem items_part {r : Record} {text : List Char} (start : text <+: r.render)
    (strict : text ≠ r.render) :
    (items (Utf8.encode text)).length ≤ 1 ∧
      (items (Utf8.encode text)).filterMap Item.record? = [] := by
  have visible : ∀ c ∈ text, Record.IsVisible c :=
    fun c mem => Record.visible_render r c (start.subset mem)
  constructor
  · have short := Record.lines_visible visible (.inl rfl)
    rw [List.append_nil] at short
    refine Nat.le_trans (List.length_filterMap_le _ _) ?_
    rw [short]
    split
    · exact Nat.zero_le 1
    · exact Nat.le_refl 1
  · rw [List.eq_nil_iff_forall_not_mem]
    intro s mem
    have spelled : s.Spelled text := by
      rw [← Record.mem_found_visible visible (.inl rfl), List.append_nil]
      exact mem
    exact strict (spelled.whole_of_part start)

/-- Whether the text of the line at every position of a log lies within so many bytes. -/
def Reaches (rs : List Record) (n m : Nat) : Prop :=
  ∀ (i : Nat) (r : Record), rs[i]? = some r →
    (i < m ↔ ((rs.take i).flatMap Record.line).length + r.text.length ≤ n)

theorem reaches_cons {r : Record} {rest : List Record} {n m : Nat} (reaches : Reaches rest n m) :
    Reaches (r :: rest) (r.line.length + n) (m + 1) := by
  intro i s there
  have line : r.line.length = r.text.length + 1 := by rw [Record.line_eq, List.length_append]; rfl
  cases i with
  | zero =>
    cases there
    simp only [Nat.zero_lt_succ, List.take_zero, List.flatMap_nil, List.length_nil, true_iff]
    omega
  | succ i =>
    have later := reaches i s there
    simp only [List.take_succ_cons, List.flatMap_cons, List.length_append]
    omega

/-- Nothing behind the first line is reached by a part of it. -/
theorem reaches_first {r : Record} {rest : List Record} {n m : Nat} (short : n ≤ r.text.length)
    (first : 0 < m ↔ r.text.length ≤ n) (one : m ≤ 1) : Reaches (r :: rest) n m := by
  intro i s there
  have line : r.line.length = r.text.length + 1 := by rw [Record.line_eq, List.length_append]; rfl
  cases i with
  | zero =>
    cases there
    simpa using first
  | succ i =>
    simp only [List.take_succ_cons, List.flatMap_cons, List.length_append]
    omega

/-- The records of a log that is cut off are those whose text is there; one line at most is damaged. -/
theorem items_cut {rs : List Record} {cut : Bytes} (part : cut <+: rs.flatMap Record.line) :
    ∃ m torn, Reaches rs cut.length m ∧ m ≤ rs.length ∧
      items cut = (rs.take m).map .record ++ torn ∧ torn.length ≤ 1 ∧
      torn.filterMap Item.record? = [] := by
  induction rs generalizing cut with
  | nil =>
    rw [List.flatMap_nil, List.prefix_nil] at part
    subst part
    exact ⟨0, [], nofun, Nat.le_refl 0, rfl, Nat.zero_le 1, rfl⟩
  | cons r rest ih =>
    have whole : ∃ m torn, Reaches (r :: rest) r.text.length m ∧ m ≤ (r :: rest).length ∧
        items r.text = ((r :: rest).take m).map .record ++ torn ∧ torn.length ≤ 1 ∧
        torn.filterMap Item.record? = [] := by
      refine ⟨1, [], reaches_first (Nat.le_refl _) (by simp) (Nat.le_refl 1), by simp, ?_,
        Nat.zero_le 1, rfl⟩
      have alone := lines_of_noFeed r.lineFeed_not_mem_text
      rw [if_neg r.text_ne_nil] at alone
      rw [items, alone, List.filterMap_cons_some r.ofLine?_text]
      rfl
    rw [List.flatMap_cons, Record.line_eq, List.append_assoc, List.singleton_append] at part
    rcases prefix_append_cases part with short | ⟨later, rfl, behind⟩
    · obtain ⟨text, start, rfl⟩ := Utf8.exists_of_prefix_encode (Record.ascii_render r) short
      by_cases strict : text = r.render
      · subst strict
        exact whole
      · obtain ⟨one, none⟩ := items_part start strict
        refine ⟨0, items (Utf8.encode text), ?_, Nat.zero_le _, rfl, one, none⟩
        have ascii : Ascii text := fun c mem => Record.ascii_render r c (start.subset mem)
        have shorter : (Utf8.encode text).length < r.text.length := by
          rw [Record.text, Utf8.length_encode ascii, Utf8.length_encode (Record.ascii_render r)]
          exact Nat.lt_of_le_of_ne start.length_le fun same => strict (start.eq_of_length same)
        exact reaches_first (Nat.le_of_lt shorter) (by omega) (Nat.zero_le 1)
    · rcases List.prefix_cons_iff.mp behind with rfl | ⟨more, rfl, others⟩
      · rw [List.append_nil]
        exact whole
      · obtain ⟨m, torn, reaches, bound, same, one, none⟩ := ih others
        have split : r.text ++ lineFeed :: more = r.line ++ more := by
          rw [Record.line_eq, List.append_assoc]
          rfl
        rw [split]
        refine ⟨m + 1, torn, ?_, Nat.succ_le_succ bound, ?_, one, none⟩
        · rw [List.length_append]
          exact reaches_cons reaches
        · rw [items_append r.closed_line, r.items_line, same]
          rfl

/-- What recovery makes of a log that is cut off: the records whose text is there, each number once. -/
theorem recover_cut {rs : List Record} {cut : Bytes} (part : cut <+: rs.flatMap Record.line) :
    ∃ m, Reaches rs cut.length m ∧ m ≤ rs.length ∧ recovered cut = firsts (rs.take m) ∧
      (recover cut).2.recordsCorrupted ≤ 1 ∧
      (firsts (rs.take m)).length + (recover cut).2.duplicateRecords = (rs.take m).length := by
  obtain ⟨m, torn, reaches, bound, same, one, none⟩ := items_cut part
  have told := tells_gather cut
  have records : (items cut).filterMap Item.record? = rs.take m := by
    rw [same, List.filterMap_append, none, List.append_nil, List.filterMap_map]
    exact List.filterMap_some
  have kept : recovered cut = firsts (rs.take m) := told.kept.trans (congrArg firsts records)
  refine ⟨m, reaches, bound, kept, ?_, ?_⟩
  · have corrupted : (recover cut).2.recordsCorrupted = (items cut).countP (·.record?.isNone) :=
      told.corrupted
    have intact : ((rs.take m).map Item.record).countP (·.record?.isNone) = 0 := by
      rw [List.countP_map]
      exact List.countP_eq_zero.mpr fun r _ => Bool.false_ne_true
    rw [corrupted, same, List.countP_append, intact, Nat.zero_add]
    exact Nat.le_trans List.countP_le_length one
  · rw [← kept, ← records]
    exact told.duplicates

/-- The records of a transaction, in their order. -/
def ofId (id : UInt64) (rs : List Record) : List Record := rs.filter (·.transaction == id)

/-- No record, the first one, or the first and then the commit under a larger number. -/
def InOrder (rs : List Record) : Prop :=
  rs = [] ∨ ∃ before, before.committed = false ∧
    (rs = [before] ∨ ∃ after, after.committed = true ∧ before.lsn < after.lsn ∧ rs = [before, after])

theorem InOrder.front {rs part : List Record} (ordered : InOrder rs) (front : part <+: rs) :
    InOrder part := by
  rcases ordered with rfl | ⟨before, early, rfl | ⟨after, late, ascending, rfl⟩⟩
  · exact .inl (List.prefix_nil.mp front)
  · rcases List.prefix_cons_iff.mp front with rfl | ⟨rest, rfl, none⟩
    · exact .inl rfl
    · exact .inr ⟨before, early, .inl (by rw [List.prefix_nil.mp none])⟩
  · rcases List.prefix_cons_iff.mp front with rfl | ⟨rest, rfl, behind⟩
    · exact .inl rfl
    · rcases List.prefix_cons_iff.mp behind with rfl | ⟨last, rfl, none⟩
      · exact .inr ⟨before, early, .inl rfl⟩
      · exact .inr ⟨before, early, .inr ⟨after, late, ascending, by rw [List.prefix_nil.mp none]⟩⟩

theorem ofId_concat (id : UInt64) (rs : List Record) (r : Record) :
    ofId id (rs ++ [r]) = ofId id rs ++ if r.transaction = id then [r] else [] := by
  rw [ofId, List.filter_append, ← ofId]
  by_cases own : r.transaction = id <;> simp [own]

theorem InOrder.not_misordered {rs : List Record} (ordered : InOrder rs) :
    (rs.foldl History.observe {}).misordered = false := by
  rcases ordered with rfl | ⟨before, early, rfl | ⟨after, late, ascending, rfl⟩⟩
  · rfl
  · simp [History.observe, early]
  · simp [History.observe, early, late, ascending]

/-- Records of transactions that are in order violate none. -/
theorem orderingViolations_eq_nil {bytes : Bytes}
    (ordered : ∀ id, InOrder (ofId id (recovered bytes))) :
    (recover bytes).2.orderingViolations = [] := by
  have listed : (recover bytes).2.orderingViolations =
      ((gather bytes).histories.filter (·.2.misordered)).map (·.1) := rfl
  rw [listed, List.map_eq_nil_iff, List.filter_eq_nil_iff]
  rintro ⟨id, h⟩ mem
  rw [(tells_gather bytes).histories, mem_histories] at mem
  have shown : h = (ofId id (recovered bytes)).foldl History.observe {} := mem.2
  simp [shown, (ordered id).not_misordered]

end PageJournal.Log
