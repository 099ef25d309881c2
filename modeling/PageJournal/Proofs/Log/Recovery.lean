import Mathlib.Data.List.Induction
import Mathlib.Data.List.Nodup
import PageJournal.Log.Recovery
import PageJournal.Proofs.Log.Scan
import PageJournal.Proofs.Word

/-! What recovery gathers, said of the records in the log and not of the pass over them: the first
record of each number is kept, and every count and list follows from those. -/
namespace PageJournal.Log

/-- Takes in a record unless its number is there. -/
def takeNew (kept : List Record) (r : Record) : List Record :=
  if kept.any (·.lsn == r.lsn) then kept else kept ++ [r]

/-- The first record of each number. -/
def firsts (rs : List Record) : List Record := rs.foldl takeNew []

theorem takeNew_old {kept : List Record} {r : Record} (old : r.lsn ∈ kept.map Record.lsn) :
    takeNew kept r = kept := by
  obtain ⟨k, mem, same⟩ := List.mem_map.mp old
  have any : kept.any (·.lsn == r.lsn) = true := List.any_eq_true.mpr ⟨k, mem, by simp [same]⟩
  exact if_pos any

theorem takeNew_new {kept : List Record} {r : Record} (new : r.lsn ∉ kept.map Record.lsn) :
    takeNew kept r = kept ++ [r] := by
  apply if_neg
  intro any
  obtain ⟨k, mem, same⟩ := List.any_eq_true.mp any
  exact new (List.mem_map.mpr ⟨k, mem, eq_of_beq same⟩)

theorem prefix_takeNew (kept : List Record) (r : Record) : kept <+: takeNew kept r := by
  unfold takeNew
  split
  · exact List.prefix_rfl
  · exact List.prefix_append _ _

theorem firsts_append (a b : List Record) : firsts (a ++ b) = b.foldl takeNew (firsts a) :=
  List.foldl_append

theorem firsts_concat (rs : List Record) (r : Record) :
    firsts (rs ++ [r]) = takeNew (firsts rs) r := firsts_append rs [r]

theorem prefix_foldl_takeNew (rs kept : List Record) : kept <+: rs.foldl takeNew kept := by
  induction rs generalizing kept with
  | nil => exact List.prefix_rfl
  | cons r rest ih => exact (prefix_takeNew kept r).trans (ih _)

theorem foldl_takeNew_old {rs kept : List Record}
    (old : ∀ r ∈ rs, r.lsn ∈ kept.map Record.lsn) : rs.foldl takeNew kept = kept := by
  induction rs with
  | nil => rfl
  | cons r rest ih =>
    rw [List.foldl_cons, takeNew_old (old r List.mem_cons_self)]
    exact ih fun x mem => old x (List.mem_cons_of_mem r mem)

theorem foldl_takeNew_new {rs kept : List Record}
    (distinct : ((kept ++ rs).map Record.lsn).Nodup) : rs.foldl takeNew kept = kept ++ rs := by
  induction rs generalizing kept with
  | nil => exact (List.append_nil kept).symm
  | cons r rest ih =>
    have new : r.lsn ∉ kept.map Record.lsn := by
      intro old
      rw [List.map_append, List.nodup_append] at distinct
      exact distinct.2.2 _ old _ List.mem_cons_self rfl
    rw [List.foldl_cons, takeNew_new new, ih (by simpa using distinct)]
    simp

/-- Nothing is dropped when no number repeats. -/
theorem firsts_eq_self {rs : List Record} (distinct : (rs.map Record.lsn).Nodup) :
    firsts rs = rs := foldl_takeNew_new distinct

theorem firsts_sublist (rs : List Record) : (firsts rs).Sublist rs := by
  induction rs using List.reverseRecOn with
  | nil => exact List.Sublist.refl _
  | append_singleton rest r ih =>
    rw [firsts_concat, takeNew]
    split
    · exact ih.trans (List.sublist_append_left _ _)
    · exact ih.append (List.Sublist.refl _)

theorem head?_firsts (rs : List Record) : (firsts rs).head? = rs.head? := by
  cases rs with
  | nil => rfl
  | cons r rest =>
    obtain ⟨more, same⟩ := prefix_foldl_takeNew rest [r]
    have first : firsts (r :: rest) = rest.foldl takeNew [r] := rfl
    rw [first, ← same]
    rfl

theorem mem_of_mem_firsts {rs : List Record} {r : Record} (mem : r ∈ firsts rs) : r ∈ rs :=
  (firsts_sublist rs).subset mem

theorem mem_lsn_takeNew {kept : List Record} {r : Record} {lsn : UInt64} :
    lsn ∈ (takeNew kept r).map Record.lsn ↔ lsn ∈ kept.map Record.lsn ∨ lsn = r.lsn := by
  by_cases old : r.lsn ∈ kept.map Record.lsn
  · rw [takeNew_old old]
    constructor
    · exact Or.inl
    · rintro (there | rfl)
      · exact there
      · exact old
  · rw [takeNew_new old, List.map_append, List.mem_append, List.map_singleton,
      List.mem_singleton]

/-- Every number of the log is kept with some record. -/
theorem mem_lsn_firsts {rs : List Record} {lsn : UInt64} :
    lsn ∈ (firsts rs).map Record.lsn ↔ lsn ∈ rs.map Record.lsn := by
  induction rs using List.reverseRecOn with
  | nil => rfl
  | append_singleton rest r ih =>
    rw [firsts_concat, mem_lsn_takeNew, ih, List.map_append, List.mem_append,
      List.map_singleton, List.mem_singleton]

/-- Records whose numbers do not occur before are kept on their own. -/
theorem firsts_append_of_new {a b : List Record}
    (new : ∀ r ∈ b, r.lsn ∉ a.map Record.lsn) : firsts (a ++ b) = firsts a ++ firsts b := by
  induction b using List.reverseRecOn with
  | nil => rw [List.append_nil]; exact (List.append_nil _).symm
  | append_singleton rest r ih =>
    have before := ih fun x mem => new x (List.mem_append_left _ mem)
    have fresh : r.lsn ∉ (firsts a).map Record.lsn := by
      rw [mem_lsn_firsts]
      exact new r (by simp)
    rw [← List.append_assoc, firsts_concat, before, firsts_concat]
    by_cases old : r.lsn ∈ (firsts rest).map Record.lsn
    · rw [takeNew_old old, takeNew_old]
      rw [List.map_append]
      exact List.mem_append_right _ old
    · rw [takeNew_new old, takeNew_new, List.append_assoc]
      rw [List.map_append, List.mem_append]
      exact not_or.mpr ⟨fresh, old⟩

theorem nodup_firsts (rs : List Record) : ((firsts rs).map Record.lsn).Nodup := by
  induction rs using List.reverseRecOn with
  | nil => exact List.nodup_nil
  | append_singleton rest r ih =>
    rw [firsts_concat]
    by_cases old : r.lsn ∈ (firsts rest).map Record.lsn
    · rwa [takeNew_old old]
    · rw [takeNew_new old, List.map_append, List.map_singleton, List.nodup_append]
      refine ⟨ih, List.nodup_singleton _, fun a there b same => ?_⟩
      rw [List.mem_singleton.mp same]
      rintro rfl
      exact old there

/-- The highest number among records, zero if there is none. -/
def top (number : Record → UInt64) (rs : List Record) : UInt64 :=
  rs.foldl (fun n r => max n (number r)) 0

theorem le_foldl_max {number : Record → UInt64} {rs : List Record} {n : UInt64} :
    n ≤ rs.foldl (fun n r => max n (number r)) n ∧
      ∀ r ∈ rs, number r ≤ rs.foldl (fun n r => max n (number r)) n := by
  induction rs generalizing n with
  | nil => exact ⟨UInt64.le_refl n, by simp⟩
  | cons r rest ih =>
    obtain ⟨start, later⟩ := @ih (max n (number r))
    refine ⟨UInt64.le_trans Std.left_le_max start, fun x mem => ?_⟩
    rcases List.mem_cons.mp mem with rfl | mem
    · exact UInt64.le_trans Std.right_le_max start
    · exact later x mem

theorem le_top {number : Record → UInt64} {rs : List Record} {r : Record} (mem : r ∈ rs) :
    number r ≤ top number rs := le_foldl_max.2 r mem

namespace Histories

/-- The transactions ascend. -/
def Sorted (hs : Histories) : Prop := hs.Pairwise fun a b => a.1 < b.1

/-- The histories of all transactions of a list of records. -/
def ofRecords (rs : List Record) : Histories := rs.foldl (fun hs r => observe r hs) []

theorem mem_keys_observe {r : Record} {hs : Histories} {id : UInt64} :
    id ∈ (observe r hs).map (·.1) ↔ id = r.transaction ∨ id ∈ hs.map (·.1) := by
  induction hs with
  | nil => simp [observe]
  | cons entry rest ih =>
    rw [observe]
    split
    · simp
    split
    · next same => simp [same]
    · rw [List.map_cons, List.mem_cons, ih, List.map_cons, List.mem_cons]
      exact or_left_comm

theorem sorted_observe (r : Record) {hs : Histories} (sorted : hs.Sorted) :
    (observe r hs).Sorted := by
  induction hs with
  | nil => exact List.pairwise_singleton _ _
  | cons entry rest ih =>
    obtain ⟨above, sorted⟩ := List.pairwise_cons.mp sorted
    rw [observe]
    split
    · next less =>
      refine List.pairwise_cons.mpr ⟨fun x mem => ?_, List.pairwise_cons.mpr ⟨above, sorted⟩⟩
      rcases List.mem_cons.mp mem with rfl | mem
      · exact less
      · exact UInt64.lt_trans less (above x mem)
    split
    · exact List.pairwise_cons.mpr ⟨above, sorted⟩
    · next notLess different =>
      have greater : entry.1 < r.transaction :=
        UInt64.lt_of_le_of_ne (UInt64.not_lt.mp notLess) (Ne.symm different)
      refine List.pairwise_cons.mpr ⟨fun x mem => ?_, ih sorted⟩
      rcases mem_keys_observe.mp (List.mem_map_of_mem mem) with same | old
      · rw [same]
        exact greater
      · obtain ⟨y, there, same⟩ := List.mem_map.mp old
        rw [← same]
        exact above y there

theorem sorted_ofRecords (rs : List Record) : (ofRecords rs).Sorted := by
  induction rs using List.reverseRecOn with
  | nil => exact List.Pairwise.nil
  | append_singleton rest r ih =>
    rw [ofRecords, List.foldl_append]
    exact sorted_observe r ih

/-- What is known of one transaction. -/
def at? (hs : Histories) (id : UInt64) : Option History :=
  (hs.find? (·.1 == id)).map (·.2)

theorem at?_cons (entry : UInt64 × History) (rest : Histories) (id : UInt64) :
    at? (entry :: rest) id = if entry.1 = id then some entry.2 else at? rest id := by
  by_cases same : entry.1 = id
  · simp [at?, same]
  · simp [at?, same]

theorem at?_eq_none {hs : Histories} {id : UInt64} (absent : id ∉ hs.map (·.1)) :
    hs.at? id = none := by
  induction hs with
  | nil => rfl
  | cons entry rest ih =>
    rw [List.map_cons, List.mem_cons, not_or] at absent
    rw [at?_cons, if_neg (Ne.symm absent.1), ih absent.2]

theorem mem_iff_at? {hs : Histories} (sorted : hs.Sorted) {id : UInt64} {h : History} :
    (id, h) ∈ hs ↔ hs.at? id = some h := by
  induction hs with
  | nil => simp [at?]
  | cons entry rest ih =>
    obtain ⟨above, sorted⟩ := List.pairwise_cons.mp sorted
    rw [at?_cons, List.mem_cons, ih sorted]
    split
    · next same =>
      have absent : id ∉ rest.map (·.1) := by
        intro mem
        obtain ⟨x, there, eq⟩ := List.mem_map.mp mem
        have less : entry.1 < x.1 := above x there
        rw [same, eq] at less
        exact UInt64.lt_irrefl id less
      rw [at?_eq_none absent]
      constructor
      · rintro (rfl | other)
        · rfl
        · cases other
      · rintro ⟨rfl⟩
        exact .inl (by rw [← same])
    · next different =>
      constructor
      · rintro (rfl | later)
        · exact absurd rfl different
        · exact later
      · exact .inr

theorem at?_observe (r : Record) {hs : Histories} (sorted : hs.Sorted) (id : UInt64) :
    (observe r hs).at? id =
      if r.transaction = id then some (((hs.at? id).getD {}).observe r) else hs.at? id := by
  induction hs with
  | nil => rw [observe, at?_cons]; rfl
  | cons entry rest ih =>
    obtain ⟨above, sorted⟩ := List.pairwise_cons.mp sorted
    rw [observe]
    split
    · next less =>
      rw [at?_cons]
      split
      · next same =>
        -- the transaction comes before all that are known
        have absent : id ∉ (entry :: rest).map (·.1) := by
          intro mem
          obtain ⟨x, there, eq⟩ := List.mem_map.mp mem
          have below : r.transaction < x.1 := by
            rcases List.mem_cons.mp there with rfl | there
            · exact less
            · exact UInt64.lt_trans less (above x there)
          have eq : x.1 = r.transaction := eq.trans same.symm
          rw [eq] at below
          exact UInt64.lt_irrefl _ below
        rw [at?_eq_none absent]
        rfl
      · rfl
    split
    · next same =>
      rw [at?_cons, at?_cons, same]
      split <;> rfl
    · next different =>
      rw [at?_cons, at?_cons, ih sorted]
      by_cases here : entry.1 = id
      · rw [if_pos here, if_pos here, if_neg (fun same => different (same.trans here.symm))]
      · rw [if_neg here, if_neg here]

/-- The records of one transaction, one after another. -/
def ofTransaction (rs : List Record) (id : UInt64) : History :=
  (rs.filter (·.transaction == id)).foldl History.observe {}

theorem at?_ofRecords (rs : List Record) (id : UInt64) :
    (ofRecords rs).at? id =
      if ∃ r ∈ rs, r.transaction = id then some (ofTransaction rs id) else none := by
  induction rs using List.reverseRecOn with
  | nil => simp [ofRecords, at?]
  | append_singleton rest r ih =>
    have step : ofRecords (rest ++ [r]) = observe r (ofRecords rest) := List.foldl_append
    rw [step, at?_observe r (sorted_ofRecords rest), ih]
    by_cases here : r.transaction = id
    · have known : ∃ x ∈ rest ++ [r], x.transaction = id := ⟨r, by simp, here⟩
      have start : ofTransaction (rest ++ [r]) id = (ofTransaction rest id).observe r := by
        simp [ofTransaction, here]
      rw [if_pos here, if_pos known, start]
      split
      · rfl
      · next none =>
        have empty : ofTransaction rest id = {} := by
          have noRecord : rest.filter (·.transaction == id) = [] := by
            rw [List.filter_eq_nil_iff]
            exact fun x mem same => none ⟨x, mem, eq_of_beq same⟩
          rw [ofTransaction, noRecord]
          rfl
        rw [empty]
        rfl
    · rw [if_neg here]
      simp [ofTransaction, here]

end Histories

/-- The histories as the records alone tell them. -/
theorem mem_histories {rs : List Record} {id : UInt64} {h : History} :
    (id, h) ∈ Histories.ofRecords rs ↔
      (∃ r ∈ rs, r.transaction = id) ∧ h = Histories.ofTransaction rs id := by
  rw [Histories.mem_iff_at? (Histories.sorted_ofRecords rs), Histories.at?_ofRecords]
  split
  · next known =>
    rw [Option.some.injEq, eq_comm]
    exact (and_iff_right known).symm
  · next unknown =>
    constructor
    · rintro ⟨⟩
    · exact fun told => absurd told.1 unknown

/-- A history ends with a commit flag exactly if one of its records carries it. -/
theorem after_foldl_observe (rs : List Record) (h : History) :
    (rs.foldl History.observe h).after.isSome = (h.after.isSome || rs.any (·.committed)) := by
  induction rs generalizing h with
  | nil => simp
  | cons r rest ih =>
    rw [List.foldl_cons, ih, List.any_cons, History.observe]
    cases committed : r.committed <;> simp

theorem after_ofTransaction (rs : List Record) (id : UInt64) :
    (Histories.ofTransaction rs id).after.isSome = true ↔
      ∃ r ∈ rs, r.transaction = id ∧ r.committed = true := by
  rw [Histories.ofTransaction, after_foldl_observe]
  simp

/-- What has been gathered from some items, said of the items. -/
structure Gathered.Tells (g : Gathered) (is : List Item) : Prop where
  kept : g.kept = firsts (is.filterMap Item.record?)
  corrupted : g.corrupted = is.countP (·.record?.isNone)
  duplicates : g.kept.length + g.duplicates = (is.filterMap Item.record?).length
  histories : g.histories = Histories.ofRecords g.kept
  lastLsn : g.lastLsn = top Record.lsn g.kept
  lastTransaction : g.lastTransaction = top Record.transaction g.kept

theorem Gathered.tells_absorb {g : Gathered} {is : List Item} (told : g.Tells is) (i : Item) :
    (g.absorb i).Tells (is ++ [i]) := by
  cases i with
  | damaged cause =>
    have same : (is ++ [Item.damaged cause]).filterMap Item.record? = is.filterMap Item.record? := by
      simp [Item.record?]
    exact {
      kept := told.kept.trans (by rw [same])
      corrupted := by simp [absorb, told.corrupted, Item.record?]
      duplicates := told.duplicates.trans (by rw [same])
      histories := told.histories
      lastLsn := told.lastLsn
      lastTransaction := told.lastTransaction }
  | record r =>
    have more : (is ++ [Item.record r]).filterMap Item.record? =
        is.filterMap Item.record? ++ [r] := by simp [Item.record?]
    have kept : firsts ((is ++ [Item.record r]).filterMap Item.record?) = takeNew g.kept r := by
      rw [more, firsts_concat, told.kept]
    have corrupted : g.corrupted = (is ++ [Item.record r]).countP (·.record?.isNone) := by
      simp [told.corrupted, Item.record?]
    have length : ((is ++ [Item.record r]).filterMap Item.record?).length =
        g.kept.length + g.duplicates + 1 := by
      rw [more, List.length_append, told.duplicates, List.length_singleton]
    rw [absorb]
    split
    · next old =>
      exact {
        kept := by rw [kept, takeNew, if_pos old]
        corrupted
        duplicates := length.symm
        histories := told.histories
        lastLsn := told.lastLsn
        lastTransaction := told.lastTransaction }
    · next new =>
      have grown : (g.keep r).kept = g.kept ++ [r] := rfl
      exact {
        kept := by rw [kept, takeNew, if_neg new, grown]
        corrupted
        duplicates := by
          rw [length, grown, List.length_append, List.length_singleton]
          exact Nat.add_right_comm _ _ _
        histories := by
          rw [grown, Histories.ofRecords, List.foldl_append]
          exact congrArg (Histories.observe r) told.histories
        lastLsn := by
          rw [grown, top, List.foldl_append]
          exact congrArg (max · r.lsn) told.lastLsn
        lastTransaction := by
          rw [grown, top, List.foldl_append]
          exact congrArg (max · r.transaction) told.lastTransaction }

theorem Gathered.tells_foldl (is : List Item) : (is.foldl absorb {}).Tells is := by
  induction is using List.reverseRecOn with
  | nil => exact ⟨rfl, rfl, rfl, rfl, rfl, rfl⟩
  | append_singleton rest i ih =>
    rw [List.foldl_append]
    exact tells_absorb ih i

theorem tells_gather (bytes : Bytes) : (gather bytes).Tells (items bytes) :=
  Gathered.tells_foldl (items bytes)

/-- The records that recovery returns. -/
def recovered (bytes : Bytes) : List Record := (recover bytes).1

theorem recovered_eq (bytes : Bytes) : recovered bytes = firsts (found bytes) :=
  (tells_gather bytes).kept

/-- The highest number that recovery tells is that of the records it returns. -/
theorem lastLsn_recover (bytes : Bytes) :
    (recover bytes).2.lastLsn = top Record.lsn (recovered bytes) := (tells_gather bytes).lastLsn

/-- The committed transactions, each counted once. -/
theorem committed_recover (bytes : Bytes) :
    ∃ ids : List UInt64, ids.Nodup ∧ (recover bytes).2.committedTransactions = ids.length ∧
      ∀ id ∈ ids, ∃ r ∈ recovered bytes, r.transaction = id ∧ r.committed = true := by
  have told := (tells_gather bytes).histories
  let marked := (gather bytes).histories.filter (·.2.after.isSome)
  refine ⟨marked.map (·.1), ?_, ?_, fun id mem => ?_⟩
  · have sorted : (gather bytes).histories.Sorted := told ▸ Histories.sorted_ofRecords _
    have ascending : (marked.map (·.1)).Pairwise (· < ·) :=
      List.pairwise_map.mpr (sorted.filter _)
    exact ascending.imp UInt64.ne_of_lt
  · rw [List.length_map]
    exact List.countP_eq_length_filter
  · obtain ⟨⟨id, h⟩, there, rfl⟩ := List.mem_map.mp mem
    obtain ⟨there, flagged⟩ := List.mem_filter.mp there
    rw [told, mem_histories] at there
    rw [there.2] at flagged
    exact (after_ofTransaction _ _).mp flagged

end PageJournal.Log
