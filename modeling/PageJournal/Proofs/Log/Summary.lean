import PageJournal.Proofs.Lists
import PageJournal.Proofs.Log.Recovery

/-! What recovery tells of a log, said of its lines as a whole. The records are the lines that are
UTF-8 and parse, of each sequence number the first; every count, maximum and list of the summary is
a function of them and of their order in the file. -/
namespace PageJournal.Log

open Text

/-- The record of a line that is UTF-8 and parses. -/
def recordOf? (line : Bytes) : Option Record :=
  match Utf8.decode line with
  | .ok text => (Record.parse text).toOption
  | .error _ => none

/-- The line is not UTF-8, or is neither blank nor a record. -/
def Corrupt (line : Bytes) : Prop :=
  (∀ text, line ≠ Utf8.encode text) ∨
    ∃ text, line = Utf8.encode text ∧ (∃ c ∈ text, isBlank c = false) ∧
      ∀ r, Record.parse text ≠ .ok r

theorem not_blank_of_parse {text : List Char} {r : Record} (h : Record.parse text = .ok r) :
    allBlank text = false := by
  have something := (Record.parse_eq_ok.mp h).ne_nil
  simpa [trimEnd_eq_nil] using something

theorem record?_ofLine? (line : Bytes) : (Item.ofLine? line).bind Item.record? = recordOf? line := by
  unfold Item.ofLine? recordOf?
  cases Utf8.decode line with
  | error => rfl
  | ok text =>
    cases parsed : Record.parse text with
    | ok r => simp [not_blank_of_parse parsed, Item.ofText, parsed, Item.record?, Except.toOption]
    | error cause =>
      cases blank : allBlank text <;> simp [Item.ofText, parsed, Item.record?, Except.toOption]

theorem damaged_iff {line : Bytes} :
    ((Item.ofLine? line).any fun item => item.record?.isNone) = true ↔ Corrupt line := by
  unfold Item.ofLine? Corrupt
  cases decoded : Utf8.decode line with
  | error cause =>
    have malformed : ∀ text, line ≠ Utf8.encode text := by
      simp [← Utf8.decode_eq_ok, decoded]
    simp [malformed, Item.record?]
  | ok text =>
    have only : ∀ other, line = Utf8.encode other ↔ text = other := by
      simp [← Utf8.decode_eq_ok, decoded]
    have visible : (∃ c ∈ text, isBlank c = false) ↔ allBlank text = false := by
      simp [allBlank]
    simp only [ne_eq, only, exists_eq_left', forall_eq', visible]
    cases parsed : Record.parse text with
    | ok r => simp [not_blank_of_parse parsed, Item.ofText, parsed, Item.record?]
    | error cause =>
      cases blank : allBlank text <;> simp [Item.ofText, parsed, Item.record?]

instance : DecidablePred Corrupt := fun _ => decidable_of_iff _ damaged_iff

/-- The records of a log, in file order and with repeated numbers. -/
def recordsOf (bytes : Bytes) : List Record := (lines bytes).filterMap recordOf?

theorem found_eq (bytes : Bytes) : found bytes = recordsOf bytes := by
  simp only [found, items, recordsOf, List.filterMap_filterMap, record?_ofLine?]

theorem countP_damaged (bytes : Bytes) :
    (items bytes).countP (·.record?.isNone) = (lines bytes).countP (Corrupt ·) := by
  simp only [items, List.countP_filterMap]
  apply List.countP_congr
  intro line _
  simp only [decide_eq_true_eq, ← damaged_iff]
  cases Item.ofLine? line <;> simp

/-- Of each sequence number the first record. -/
def firstOfEach (rs : List Record) : List Record :=
  (rs.zipIdx.filter fun (r, i) => ∀ earlier ∈ rs.take i, earlier.lsn ≠ r.lsn).map (·.1)

theorem firstOfEach_concat (rs : List Record) (r : Record) :
    firstOfEach (rs ++ [r]) =
      if r.lsn ∈ rs.map Record.lsn then firstOfEach rs else firstOfEach rs ++ [r] := by
  -- what stands before an older record does not change
  have front : (rs.zipIdx.filter fun (x, i) =>
        ∀ earlier ∈ (rs ++ [r]).take i, earlier.lsn ≠ x.lsn) =
      rs.zipIdx.filter fun (x, i) => ∀ earlier ∈ rs.take i, earlier.lsn ≠ x.lsn := by
    apply List.filter_congr
    intro ⟨x, i⟩ mem
    have inside : i < rs.length := by
      have bound := List.snd_lt_add_of_mem_zipIdx mem
      omega
    simp only [List.take_append_of_le_length (Nat.le_of_lt inside)]
  have last : (∀ earlier ∈ rs, earlier.lsn ≠ r.lsn) ↔ r.lsn ∉ rs.map Record.lsn := by
    simp
  simp only [firstOfEach, List.zipIdx_append, List.filter_append, front, List.map_append]
  by_cases old : r.lsn ∈ rs.map Record.lsn <;> simp [last, old]

theorem firsts_eq (rs : List Record) : firsts rs = firstOfEach rs := by
  induction rs using List.reverseRecOn with
  | nil => rfl
  | append_singleton rest r ih =>
    simp only [firsts_concat, firstOfEach_concat, ← ih, ← @mem_lsn_firsts rest]
    split
    · next old => exact takeNew_old old
    · next new => exact takeNew_new new

theorem top_eq (number : Record → UInt64) (rs : List Record) :
    top number rs = ((rs.map number).max?).getD 0 := by
  cases rs with
  | nil => rfl
  | cons r rest =>
    have least : max 0 (number r) = number r := if_pos UInt64.zero_le
    simp only [top, List.foldl_cons, least, List.map_cons, List.max?_cons', List.foldl_map,
      Option.getD_some]

/-- The records of a transaction that do not carry the commit flag. -/
def preRecords (id : UInt64) (rs : List Record) : List Record :=
  rs.filter fun r => r.transaction = id ∧ r.committed = false

/-- Before a commit there is no record of its transaction without the flag, or the nearest such record
has no lower number. -/
def Unprepared (before : List Record) (r : Record) : Prop :=
  preRecords r.transaction before = [] ∨
    ∃ p, (preRecords r.transaction before).getLast? = some p ∧ r.lsn ≤ p.lsn

/-- A commit of the transaction is unprepared, or a record without the flag follows it. -/
def Misordered (rs : List Record) (id : UInt64) : Prop :=
  ∃ before r after, rs = before ++ r :: after ∧ r.transaction = id ∧ r.committed = true ∧
    (Unprepared before r ∨ preRecords id after ≠ [])

/-- The last of the records is the one that is singled out, or one of those behind it. -/
theorem concat_eq_append_cons {rs before after : List Record} {r c : Record} :
    rs ++ [r] = before ++ c :: after ↔
      (before = rs ∧ c = r ∧ after = []) ∨
        ∃ rest, after = rest ++ [r] ∧ rs = before ++ c :: rest := by
  constructor
  · intro same
    obtain rfl | ⟨rest, x, rfl⟩ := List.eq_nil_or_concat after
    · obtain ⟨rfl, last⟩ := List.append_inj' same rfl
      cases last
      exact .inl ⟨rfl, rfl, rfl⟩
    · have split : rs ++ [r] = (before ++ c :: rest) ++ [x] := by simpa using same
      obtain ⟨rfl, last⟩ := List.append_inj' split rfl
      cases last
      exact .inr ⟨rest, by simp, rfl⟩
  · rintro (⟨rfl, rfl, rfl⟩ | ⟨rest, rfl, rfl⟩)
    · rfl
    · simp

namespace Histories

theorem ofTransaction_concat (rs : List Record) (r : Record) (id : UInt64) :
    ofTransaction (rs ++ [r]) id =
      if r.transaction = id then (ofTransaction rs id).observe r else ofTransaction rs id := by
  by_cases here : r.transaction = id <;> simp [ofTransaction, here]

theorem before_ofTransaction (rs : List Record) (id : UInt64) :
    (ofTransaction rs id).before = ((preRecords id rs).getLast?).map Record.lsn := by
  induction rs using List.reverseRecOn with
  | nil => rfl
  | append_singleton rest r ih =>
    by_cases here : r.transaction = id <;> cases committed : r.committed <;>
      simp [ofTransaction_concat, History.observe, preRecords, here, committed, ih]

theorem any_before_ofTransaction (rs : List Record) (r : Record) :
    (ofTransaction rs r.transaction).before.any (· < r.lsn) = false ↔ Unprepared rs r := by
  simp only [before_ofTransaction, Unprepared]
  cases last : (preRecords r.transaction rs).getLast? with
  | none => simp [List.getLast?_eq_none_iff.mp last]
  | some p =>
    have some : preRecords r.transaction rs ≠ [] := by
      intro empty
      simp [empty] at last
    simp [some]

theorem misordered_concat {rs : List Record} {r : Record} {id : UInt64} :
    Misordered (rs ++ [r]) id ↔
      Misordered rs id ∨ (r.transaction = id ∧ r.committed = true ∧ Unprepared rs r) ∨
        (r.transaction = id ∧ r.committed = false ∧
          ∃ c ∈ rs, c.transaction = id ∧ c.committed = true) := by
  have later : ∀ rest, preRecords id (rest ++ [r]) ≠ [] ↔
      preRecords id rest ≠ [] ∨ (r.transaction = id ∧ r.committed = false) := by
    intro rest
    by_cases here : r.transaction = id <;> cases committed : r.committed <;>
      simp [preRecords, here, committed]
  constructor
  · rintro ⟨before, c, after, split, ofId, committed, wrong⟩
    obtain ⟨rfl, rfl, rfl⟩ | ⟨rest, rfl, rfl⟩ := concat_eq_append_cons.mp split
    · have unprepared := wrong.resolve_right (by simp [preRecords])
      exact .inr (.inl ⟨ofId, committed, unprepared⟩)
    · simp only [later] at wrong
      obtain unprepared | behind | ⟨here, pre⟩ := wrong
      · exact .inl ⟨before, c, rest, rfl, ofId, committed, .inl unprepared⟩
      · exact .inl ⟨before, c, rest, rfl, ofId, committed, .inr behind⟩
      · exact .inr (.inr ⟨here, pre, c, by simp, ofId, committed⟩)
  · rintro (⟨before, c, after, rfl, ofId, committed, wrong⟩ | ⟨here, committed, wrong⟩ |
      ⟨here, pre, c, mem, ofId, committed⟩)
    · have still := wrong.imp_right fun behind => (later after).mpr (.inl behind)
      exact ⟨before, c, after ++ [r], by simp, ofId, committed, still⟩
    · exact ⟨rs, r, [], rfl, here, committed, .inl wrong⟩
    · obtain ⟨before, after, rfl⟩ := List.append_of_mem mem
      have behind := (later after).mpr (.inr ⟨here, pre⟩)
      exact ⟨before, c, after ++ [r], by simp, ofId, committed, .inr behind⟩

theorem misordered_ofTransaction (rs : List Record) (id : UInt64) :
    (ofTransaction rs id).misordered = true ↔ Misordered rs id := by
  induction rs using List.reverseRecOn with
  | nil => simp [ofTransaction, Misordered]
  | append_singleton rest r ih =>
    by_cases here : r.transaction = id
    · subst here
      cases committed : r.committed with
      | true => simp [ofTransaction_concat, History.observe, misordered_concat, committed, ih,
          any_before_ofTransaction]
      | false => simp [ofTransaction_concat, History.observe, misordered_concat, committed, ih,
          after_ofTransaction]
    · simp [ofTransaction_concat, misordered_concat, here, ih]

end Histories

/-- What a summary tells of a log of which the records `rs` are kept. -/
structure Summary.Describes (s : Summary) (bytes : Bytes) (rs : List Record) : Prop where
  recordsRead : s.recordsRead = rs.length
  duplicateRecords : rs.length + s.duplicateRecords = (recordsOf bytes).length
  recordsCorrupted : s.recordsCorrupted = (lines bytes).countP (Corrupt ·)
  lastLsn : s.lastLsn = ((rs.map Record.lsn).max?).getD 0
  lastTransaction : s.lastTransaction = ((rs.map Record.transaction).max?).getD 0
  committedTransactions : s.committedTransactions =
    ((rs.filter (·.committed)).map Record.transaction).dedup.length
  incomplete_ascend : s.incompleteTransactions.Pairwise (· < ·)
  mem_incomplete : ∀ id, id ∈ s.incompleteTransactions ↔
    (∃ r ∈ rs, r.transaction = id) ∧ ¬∃ r ∈ rs, r.transaction = id ∧ r.committed = true
  all_counted : s.committedTransactions + s.incompleteTransactions.length =
    (rs.map Record.transaction).dedup.length
  violations_ascend : s.orderingViolations.Pairwise (· < ·)
  mem_violations : ∀ id, id ∈ s.orderingViolations ↔ Misordered rs id

/-- The transactions with a history of some kind. -/
def Histories.those (p : History → Bool) (rs : List Record) : List UInt64 :=
  ((ofRecords rs).filter fun entry => p entry.2).map (·.1)

theorem ascend_those (p : History → Bool) (rs : List Record) :
    (Histories.those p rs).Pairwise (· < ·) :=
  List.pairwise_map.mpr ((Histories.sorted_ofRecords rs).filter _)

theorem mem_those {p : History → Bool} {rs : List Record} {id : UInt64} :
    id ∈ Histories.those p rs ↔
      (∃ r ∈ rs, r.transaction = id) ∧ p (Histories.ofTransaction rs id) = true := by
  simp [Histories.those, mem_histories]

theorem countP_committed (rs : List Record) :
    (Histories.ofRecords rs).countP (·.2.after.isSome) =
      ((rs.filter (·.committed)).map Record.transaction).dedup.length := by
  have same : ∀ id, id ∈ Histories.those (·.after.isSome) rs ↔
      id ∈ (rs.filter (·.committed)).map Record.transaction := by
    intro id
    simp only [mem_those, after_ofTransaction, List.mem_map, List.mem_filter]
    grind
  simp [← length_eq_dedup ((ascend_those _ rs).imp UInt64.ne_of_lt) same, Histories.those, List.countP_eq_length_filter]

theorem length_ofRecords (rs : List Record) :
    (Histories.ofRecords rs).length = (rs.map Record.transaction).dedup.length := by
  have same : ∀ id, id ∈ Histories.those (fun _ => true) rs ↔ id ∈ rs.map Record.transaction := by
    simp [mem_those]
  simp [← length_eq_dedup ((ascend_those _ rs).imp UInt64.ne_of_lt) same, Histories.those]

theorem mem_misordered {rs : List Record} {id : UInt64} :
    id ∈ Histories.those (·.misordered) rs ↔ Misordered rs id := by
  simp only [mem_those, Histories.misordered_ofTransaction, and_iff_right_iff_imp]
  rintro ⟨before, r, after, rfl, ofId, -⟩
  exact ⟨r, by simp, ofId⟩

theorem Gathered.Tells.describes {g : Gathered} {bytes : Bytes} (told : g.Tells (items bytes)) :
    g.summary.Describes bytes g.kept := by
  have committed : g.summary.committedTransactions =
      ((g.kept.filter (·.committed)).map Record.transaction).dedup.length :=
    (congrArg (List.countP _) told.histories).trans (countP_committed g.kept)
  have incomplete : g.summary.incompleteTransactions =
      Histories.those (!·.after.isSome) g.kept := by
    simp only [Histories.those, ← told.histories, summary]
  have violations : g.summary.orderingViolations = Histories.those (·.misordered) g.kept := by
    simp only [Histories.those, ← told.histories, summary]
  have transactions : g.summary.committedTransactions + g.summary.incompleteTransactions.length =
      (g.kept.map Record.transaction).dedup.length := by
    have parts := List.length_eq_countP_add_countP (·.2.after.isSome) (l := g.histories)
    simp only [← length_ofRecords, ← told.histories, parts, summary, List.length_map,
      ← List.countP_eq_length_filter, Nat.add_left_cancel_iff]
    exact List.countP_congr (by simp)
  constructor
  case recordsRead => rfl
  case duplicateRecords => exact told.duplicates.trans (congrArg List.length (found_eq bytes))
  case recordsCorrupted => exact told.corrupted.trans (countP_damaged bytes)
  case lastLsn => exact told.lastLsn.trans (top_eq _ _)
  case lastTransaction => exact told.lastTransaction.trans (top_eq _ _)
  case committedTransactions => exact committed
  case incomplete_ascend => exact incomplete ▸ ascend_those _ _
  case mem_incomplete =>
    intro id
    simp only [incomplete, mem_those, Bool.not_eq_true', ← Bool.not_eq_true, after_ofTransaction]
  case all_counted => exact transactions
  case violations_ascend => exact violations ▸ ascend_those _ _
  case mem_violations =>
    intro id
    simp only [violations, mem_misordered]

/-- Recovery returns the first record of each number and describes them. -/
theorem recover_describes (bytes : Bytes) :
    (recover bytes).1 = firstOfEach (recordsOf bytes) ∧
      (recover bytes).2.Describes bytes (firstOfEach (recordsOf bytes)) := by
  have kept : (gather bytes).kept = firstOfEach (recordsOf bytes) := by
    simp only [← firsts_eq, ← found_eq, (tells_gather bytes).kept, found]
  constructor
  · exact kept
  · simp only [← kept]
    exact (tells_gather bytes).describes

end PageJournal.Log
