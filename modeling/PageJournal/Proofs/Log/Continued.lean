import PageJournal.Proofs.Log.Cut
import PageJournal.Proofs.Log.Glued

/-! A log that is written on under higher numbers. What was recovered before is recovered again, with the
new records behind it, unless the last line of the old log has no end: then that line and the first new
record are lost to each other. -/
namespace PageJournal.Log

open Histories

theorem observe_append {hs : Histories} {r : Record} (above : ∀ x ∈ hs, x.1 < r.transaction)
    (more : Histories) : observe r (hs ++ more) = hs ++ observe r more := by
  induction hs with
  | nil => rfl
  | cons x rest ih =>
    have less := above x List.mem_cons_self
    have notLess : ¬ r.transaction < x.1 := UInt64.not_lt.mpr (UInt64.le_of_lt less)
    have other : ¬ r.transaction = x.1 := fun same => UInt64.lt_irrefl _ (same ▸ less)
    rw [List.cons_append, observe, if_neg notLess, if_neg other,
      ih fun y mem => above y (List.mem_cons_of_mem x mem)]
    rfl

/-- Records of higher transactions do not touch the histories of the others. -/
theorem ofRecords_append {a b : List Record}
    (above : ∀ x ∈ a, ∀ r ∈ b, x.transaction < r.transaction) :
    ofRecords (a ++ b) = ofRecords a ++ ofRecords b := by
  induction b using List.reverseRecOn with
  | nil => simp [ofRecords]
  | append_singleton b r ih =>
    have before := ih fun x there y mem => above x there y (List.mem_append_left _ mem)
    have keys : ∀ x ∈ ofRecords a, x.1 < r.transaction := by
      rintro ⟨id, h⟩ mem
      obtain ⟨⟨x, there, rfl⟩, -⟩ := mem_histories.mp mem
      exact above x there r (by simp)
    have step : ∀ rs, ofRecords (rs ++ [r]) = observe r (ofRecords rs) := fun rs => by simp [ofRecords]
    rw [← List.append_assoc, step, before, step, observe_append keys]

/-- Records that go on behind a log: higher numbers, each sequence number once, and every transaction in
order. -/
structure Follows (old : Bytes) (rs : List Record) : Prop where
  lsns : ∀ r ∈ rs, (recover old).2.lastLsn < r.lsn
  transactions : ∀ r ∈ rs, (recover old).2.lastTransaction < r.transaction
  distinct : (rs.map Record.lsn).Nodup
  ordered : ∀ id, InOrder (ofId id rs)

theorem Follows.front {old : Bytes} {rs part : List Record} (follows : Follows old rs)
    (front : part <+: rs) : Follows old part where
  lsns r mem := follows.lsns r (front.subset mem)
  transactions r mem := follows.transactions r (front.subset mem)
  distinct := follows.distinct.sublist (front.sublist.map Record.lsn)
  ordered id := (follows.ordered id).front (front.filter _)

/-- Reading a log gives everything that was read of the old one, and then these records. -/
structure Continues (old : Bytes) (rs : List Record) (bytes : Bytes) : Prop where
  records : recovered bytes = recovered old ++ rs
  corrupted : (recover bytes).2.recordsCorrupted = (recover old).2.recordsCorrupted
  duplicates : (recover bytes).2.duplicateRecords = (recover old).2.duplicateRecords
  committed : ∀ r ∈ recovered old ++ rs, r.committed = true →
    r.transaction ∉ (recover bytes).2.incompleteTransactions
  violations : (recover bytes).2.orderingViolations = (recover old).2.orderingViolations

theorem le_lastLsn {old : Bytes} {r : Record} (mem : r ∈ found old) :
    r.lsn ≤ (recover old).2.lastLsn := by
  have kept : r.lsn ∈ (recovered old).map Record.lsn := by
    rw [recovered_eq, mem_lsn_firsts]
    exact List.mem_map_of_mem mem
  obtain ⟨x, there, same⟩ := List.mem_map.mp kept
  rw [lastLsn_recover, ← same]
  exact le_top there

theorem le_lastTransaction {old : Bytes} {r : Record} (mem : r ∈ recovered old) :
    r.transaction ≤ (recover old).2.lastTransaction := by
  have last : (recover old).2.lastTransaction = top Record.transaction (recovered old) :=
    (tells_gather old).lastTransaction
  rw [last]
  exact le_top mem

/-- Behind whole lines, records under higher numbers are recovered on their own. -/
theorem recovered_above {old front rest : Bytes} (closed : Closed front)
    (part : found front <+: found old)
    (above : ∀ r ∈ found rest, (recover old).2.lastLsn < r.lsn)
    (distinct : ((found rest).map Record.lsn).Nodup) :
    recovered (front ++ rest) = recovered front ++ found rest := by
  have new : ∀ r ∈ found rest, r.lsn ∉ (found front).map Record.lsn := by
    intro r mem known
    obtain ⟨x, there, same⟩ := List.mem_map.mp known
    have low := le_lastLsn (part.subset there)
    rw [same] at low
    exact UInt64.lt_irrefl _ (UInt64.lt_of_lt_of_le (above r mem) low)
  rw [recovered_eq, found_append closed, firsts_append_of_new new, firsts_eq_self distinct,
    ← recovered_eq]

/-- Behind whole lines, records that follow are recovered on their own. -/
theorem recovered_behind {old : Bytes} {rs : List Record} (follows : Follows old rs)
    {front rest : Bytes} (closed : Closed front) (part : found front <+: found old)
    (behind : found rest <:+ rs) : recovered (front ++ rest) = recovered front ++ found rest :=
  recovered_above closed part (fun r mem => follows.lsns r (behind.subset mem))
    (follows.distinct.sublist (behind.sublist.map Record.lsn))

theorem not_incomplete {bytes : Bytes} {r : Record} (mem : r ∈ recovered bytes)
    (committed : r.committed = true) :
    r.transaction ∉ (recover bytes).2.incompleteTransactions := by
  intro listed
  obtain ⟨⟨id, h⟩, there, same⟩ := List.mem_map.mp listed
  obtain ⟨there, unfinished⟩ := List.mem_filter.mp there
  rw [(tells_gather bytes).histories, mem_histories] at there
  have finished : h.after.isSome = true := by
    rw [there.2, after_ofTransaction]
    exact ⟨r, mem, same.symm, committed⟩
  simp [finished] at unfinished

theorem continues_closed {old : Bytes} {rs : List Record} (closed : Closed old)
    (follows : Follows old rs) : Continues old rs (old ++ rs.flatMap Record.line) := by
  have told := tells_gather old
  have more := tells_gather (old ++ rs.flatMap Record.line)
  have records : recovered (old ++ rs.flatMap Record.line) = recovered old ++ rs := by
    have behind : recovered (old ++ rs.flatMap Record.line) =
        recovered old ++ found (rs.flatMap Record.line) :=
      recovered_behind follows closed List.prefix_rfl (by simp [found_lines])
    rwa [found_lines] at behind
  have items := items_append closed (rs.flatMap Record.line)
  rw [items_lines] at items
  have histories : (gather (old ++ rs.flatMap Record.line)).histories =
      (gather old).histories ++ Histories.ofRecords rs := by
    have above : ∀ x ∈ recovered old, ∀ r ∈ rs, x.transaction < r.transaction :=
      fun x there r mem => UInt64.lt_of_le_of_lt (le_lastTransaction there) (follows.transactions r mem)
    have kept : (gather (old ++ rs.flatMap Record.line)).kept = recovered old ++ rs := records
    rw [more.histories, told.histories, kept, ofRecords_append above]
    rfl
  refine ⟨records, ?_, ?_, fun r mem committed => not_incomplete (records ▸ mem) committed, ?_⟩
  · have intact : (rs.map Item.record).countP (·.record?.isNone) = 0 := by
      simp [List.countP_map, List.countP_eq_zero, Item.record?]
    refine more.corrupted.trans ?_
    rw [items, List.countP_append, intact, Nat.add_zero]
    exact told.corrupted.symm
  · have length : (gather (old ++ rs.flatMap Record.line)).kept.length =
        (gather old).kept.length + rs.length := by
      have same := congrArg List.length records
      rwa [List.length_append] at same
    have all := more.duplicates
    have before := told.duplicates
    rw [items, List.filterMap_append, List.filterMap_map, List.length_append] at all
    have own : (rs.filterMap (Item.record? ∘ Item.record)).length = rs.length :=
      congrArg List.length List.filterMap_some
    show (gather (old ++ rs.flatMap Record.line)).duplicates = (gather old).duplicates
    omega
  · have ordered : (Histories.ofRecords rs).filter (·.2.misordered) = [] := by
      rw [List.filter_eq_nil_iff]
      rintro ⟨id, h⟩ mem
      have shown : h = (ofId id rs).foldl History.observe {} := (mem_histories.mp mem).2
      simp [shown, (follows.ordered id).not_misordered]
    simp only [recover, Gathered.summary, histories, List.filter_append, ordered, List.append_nil]

theorem found_torn {tail : Bytes} (torn : tail ≠ []) (noFeed : lineFeed ∉ tail) (r : Record)
    (rest : List Record) : found (tail ++ r.line ++ rest.flatMap Record.line) = rest := by
  obtain ⟨cause, damaged⟩ := items_glued torn noFeed r
  have glued : Closed (tail ++ r.line) := by
    rw [Record.line_eq, ← List.append_assoc]
    exact closed_concat _
  rw [found_append glued, found_lines]
  simp [found, damaged, Item.record?]

/-- The first record behind an open line is lost with it. -/
theorem recovered_torn {old front tail : Bytes} (whole : old = front ++ tail) (closed : Closed front)
    (torn : tail ≠ []) (noFeed : lineFeed ∉ tail) {r : Record} {rest : List Record}
    (follows : Follows old (r :: rest)) :
    recovered (old ++ (r :: rest).flatMap Record.line) = recovered front ++ rest ∧
      recovered front <+: recovered old := by
  have part : found front <+: found old := by
    rw [whole, found_append closed]
    exact List.prefix_append _ _
  have behind := found_torn torn noFeed r rest
  have split : old ++ (r :: rest).flatMap Record.line =
      front ++ (tail ++ r.line ++ rest.flatMap Record.line) := by
    simp [whole]
  constructor
  · rw [split, recovered_behind follows closed part (by rw [behind]; exact List.suffix_cons r rest),
      behind]
  · obtain ⟨more, same⟩ := part
    rw [recovered_eq, recovered_eq, ← same, firsts_append]
    exact prefix_foldl_takeNew _ _

/-- A record in the log is kept or is dropped as a repetition. -/
theorem length_found (bytes : Bytes) :
    (recovered bytes).length + (recover bytes).2.duplicateRecords = (found bytes).length :=
  (tells_gather bytes).duplicates

/-- Behind the records of some lines these are read, and recovery drops none of them. -/
structure Keeps (front : Bytes) (rest : List Record) (bytes : Bytes) : Prop where
  read : found bytes = found front ++ rest
  kept : recovered bytes = recovered front ++ rest
  duplicates : (recover bytes).2.duplicateRecords = (recover front).2.duplicateRecords

theorem keeps_above {old front behind : Bytes} {rest : List Record} (closed : Closed front)
    (part : found front <+: found old) (lines : found behind = rest)
    (above : ∀ r ∈ rest, (recover old).2.lastLsn < r.lsn) (distinct : (rest.map Record.lsn).Nodup) :
    Keeps front rest (front ++ behind) := by
  subst lines
  have read := found_append closed behind
  have kept := recovered_above closed part above distinct
  refine ⟨read, kept, ?_⟩
  have all := length_found (front ++ behind)
  have own := length_found front
  rw [read, kept, List.length_append, List.length_append] at all
  omega

/-- Records under higher numbers, each once, are no repetitions. They are read behind the lines of the
log that have their end; behind an open line the first of them is damaged with it. -/
theorem keeps_behind {old : Bytes} {rs : List Record}
    (above : ∀ r ∈ rs, (recover old).2.lastLsn < r.lsn) (distinct : (rs.map Record.lsn).Nodup) :
    Keeps (if rs = [] then old else wholeLines old) (if Closed old then rs else rs.tail)
      (old ++ rs.flatMap Record.line) := by
  cases rs with
  | nil => constructor <;> simp
  | cons r rest =>
    rw [if_neg (List.cons_ne_nil r rest)]
    by_cases closed : Closed old
    · rw [wholeLines_closed closed, if_pos closed]
      exact keeps_above closed List.prefix_rfl (found_lines _) above distinct
    · obtain ⟨front, tail, rfl, ended, noFeed⟩ := exists_open_tail old
      have torn : tail ≠ [] := by
        rintro rfl
        rw [List.append_nil] at closed
        exact closed ended
      have part : found front <+: found (front ++ tail) := by
        rw [found_append ended]
        exact List.prefix_append _ _
      have split : front ++ tail ++ (r :: rest).flatMap Record.line =
          front ++ (tail ++ r.line ++ rest.flatMap Record.line) := by
        simp
      rw [wholeLines_append ended noFeed, if_neg closed, split]
      exact keeps_above ended part (found_torn torn noFeed r rest)
        (fun x mem => above x (List.mem_cons_of_mem r mem)) (List.nodup_cons.mp distinct).2

/-- A log goes on as it should exactly if its last line has its end, or nothing is written. -/
theorem continues_iff {old : Bytes} {rs : List Record} (follows : Follows old rs) :
    Continues old rs (old ++ rs.flatMap Record.line) ↔ Closed old ∨ rs = [] := by
  constructor
  · intro continues
    cases rs with
    | nil => exact .inr rfl
    | cons r rest =>
      obtain ⟨front, tail, whole, closed, noFeed⟩ := exists_open_tail old
      by_cases torn : tail = []
      · exact .inl (by simpa [whole, torn] using closed)
      · obtain ⟨lost, part⟩ := recovered_torn whole closed torn noFeed follows
        have lengths := congrArg List.length (lost.symm.trans continues.records)
        have shorter := part.length_le
        simp only [List.length_append, List.length_cons] at lengths
        omega
  · rintro (closed | rfl)
    · exact continues_closed closed follows
    · refine ⟨?_, ?_, ?_, fun r mem => ?_, ?_⟩
      all_goals simp
      exact not_incomplete (by simpa using mem)

end PageJournal.Log
