import PageJournal.Proofs.Checkpoint.Transparent
import PageJournal.Proofs.Engine.Reopening
import PageJournal.Proofs.Word

/-! Which arithmetic on words stays in its range. The numbers that go on behind a log do unless it holds the
highest one, and the shares of a checkpoint hold a page each unless their number, with that of the pages,
passes what a word can count. -/
namespace PageJournal

namespace Log

/-- The highest number is one of the numbers. -/
theorem top_reached (number : Record → UInt64) (rs : List Record) :
    top number rs = 0 ∨ ∃ r ∈ rs, top number rs = number r := by
  induction rs using List.reverseRecOn with
  | nil => exact .inl rfl
  | append_singleton front r ih =>
    have last : top number (front ++ [r]) = max (top number front) (number r) := by simp [top]
    rw [last]
    rcases Std.max_eq_or (a := top number front) (b := number r) with same | same
    · rw [same]
      refine ih.imp_right ?_
      rintro ⟨x, mem, found⟩
      exact ⟨x, List.mem_append_left _ mem, found⟩
    · exact .inr ⟨r, by simp, same⟩

theorem top_below_iff {number : Record → UInt64} {rs : List Record} :
    (top number rs).toNat + 1 < 2 ^ 64 ↔ ∀ r ∈ rs, (number r).toNat + 1 < 2 ^ 64 := by
  constructor
  · intro below r mem
    have highest : number r ≤ top number rs := le_top mem
    have le := UInt64.le_iff_toNat_le.mp highest
    omega
  · intro all
    rcases top_reached number rs with zero | ⟨r, mem, same⟩
    · rw [zero]
      decide
    · rw [same]
      exact all r mem

/-- Numbers go on from a word that is not the highest. -/
theorem Sequence.startingAt_succ_iff (n : UInt64) :
    (startingAt (n + 1)).next.toNat = n.toNat + 1 ↔ n.toNat + 1 < 2 ^ 64 := by
  rw [← toNat_succ_iff]
  by_cases zero : n + 1 = 0
  · have one : (startingAt (n + 1)).next = 1 := by simp [startingAt, zero]
    have last := congrArg UInt64.toNat zero
    rw [UInt64.toNat_add, UInt64.toNat_one, UInt64.toNat_zero] at last
    rw [one, zero, UInt64.toNat_one, UInt64.toNat_zero]
    omega
  · simp [startingAt, zero]

end Log

namespace Checkpoint.Checkpointer

variable {threads pages : Nat}

theorem toNat_shareSize (several : 2 ≤ threads) (word : threads < 2 ^ 64) (some : 2 ≤ pages)
    (fits : pages < 2 ^ 64) : (shareSize threads pages).toNat =
      if pages + threads ≤ 2 ^ 64 then (pages + threads - 1) / threads else 0 := by
  have sum : (UInt64.ofNat pages + UInt64.ofNat threads - 1).toNat =
      if pages + threads ≤ 2 ^ 64 then pages + threads - 1 else pages + threads - 1 - 2 ^ 64 := by
    rw [UInt64.toNat_sub, UInt64.toNat_add, UInt64.toNat_ofNat', UInt64.toNat_ofNat', UInt64.toNat_one]
    split <;> omega
  have divisor : (UInt64.ofNat threads).toNat = threads := UInt64.toNat_ofNat_of_lt' word
  rw [shareSize, UInt64.toNat_div, sum, divisor]
  split
  · rfl
  · exact Nat.div_eq_of_lt (by omega)

/-- A cycle breaks off exactly if a word cannot count its threads and its pages. -/
theorem breaksOff_iff {c : Checkpointer} (word : c.flushThreads < 2 ^ 64)
    (fits : c.collect.1.length < 2 ^ 64) :
    c.breaksOff = true ↔ 2 ^ 64 < c.collect.1.length + c.flushThreads := by
  simp only [breaksOff, Bool.and_eq_true, decide_eq_true_eq, ← UInt64.toNat_inj, UInt64.toNat_zero]
  constructor
  · rintro ⟨⟨several, some⟩, none⟩
    rw [toNat_shareSize several word some fits] at none
    split at none
    · have one : 0 < (c.collect.1.length + c.flushThreads - 1) / c.flushThreads :=
        Nat.div_pos (by omega) (by omega)
      omega
    · omega
  · intro past
    have several : 2 ≤ c.flushThreads := by omega
    have some : 2 ≤ c.collect.1.length := by omega
    refine ⟨⟨several, some⟩, ?_⟩
    rw [toNat_shareSize several word some fits, if_neg (Nat.not_le.mpr past)]

/-- Within a word, the shares of several threads are of the size that the word gives, and none is empty. -/
theorem shares_eq_chunks {pages : List PageId} (several : 2 ≤ threads) (some : 2 ≤ pages.length)
    (sum : pages.length + threads ≤ 2 ^ 64) :
    1 ≤ (shareSize threads pages.length).toNat ∧
      shares threads pages = chunks (shareSize threads pages.length).toNat pages := by
  rw [toNat_shareSize several (by omega) some (by omega), if_pos sum]
  refine ⟨Nat.div_pos (by omega) (by omega), ?_⟩
  have one : ¬ (threads ≤ 1 || pages.length ≤ 1) := by simp; omega
  rw [shares, if_neg one]

end Checkpoint.Checkpointer

namespace Engine

open Log Checkpoint.Checkpointer

/-- Where an engine has been opened on a log, its numbers are those behind the log exactly if no record that
is recovered has the highest number there is. A checkpoint cycle goes through, in shares of one page at
least, unless a word cannot count the pages and the flushing threads together. -/
theorem numbers_in_range_iff {c : Config} {clock : Clock} {v made after : Volume} {dir home : Path} {k : Nat}
    {old : Bytes} {e : Engine} (directory : makeDirectory c v = .ok (dir, made))
    (remains : Remains dir home k old made) (opened : openWith c clock v = (.ok e, after))
    (word : c.flushThreads < 2 ^ 64) :
    (e.sequence.next.toNat = (recover old).2.lastLsn.toNat + 1 ↔
      ∀ r ∈ recovered old, r.lsn.toNat + 1 < 2 ^ 64) ∧
    (e.nextTransaction.toNat = (recover old).2.lastTransaction.toNat + 1 ↔
      ∀ r ∈ recovered old, r.transaction.toNat + 1 < 2 ^ 64) ∧
    ∀ f : Checkpoint.Checkpointer, f.flushThreads = c.flushThreads → f.collect.1.length < 2 ^ 64 →
      (∀ now thread trouble, f.attempt now thread trouble =
        if f.collect.1.length + c.flushThreads ≤ 2 ^ 64 then some (f.cycle now thread trouble)
        else none) ∧
      ((UInt64.ofNat f.collect.1.length + UInt64.ofNat c.flushThreads).toNat =
        f.collect.1.length + c.flushThreads ↔ f.collect.1.length + c.flushThreads < 2 ^ 64) ∧
      (f.collect.1.length + c.flushThreads ≤ 2 ^ 64 → 2 ≤ f.collect.1.length → 2 ≤ c.flushThreads →
        1 ≤ (shareSize c.flushThreads f.collect.1.length).toNat ∧
        shares c.flushThreads f.collect.1 =
          chunks (shareSize c.flushThreads f.collect.1.length).toNat f.collect.1) := by
  have resumed := resumed_openWith directory remains opened
  refine ⟨?_, ?_, fun f threads fits => ⟨fun now thread trouble => ?_, ?_, fun sum some several => ?_⟩⟩
  · rw [resumed.sequence, Sequence.startingAt_succ_iff, lastLsn_recover, top_below_iff]
  · have last : (recover old).2.lastTransaction = top Record.transaction (recovered old) :=
      (tells_gather old).lastTransaction
    rw [resumed.transaction, toNat_succ_iff, last, top_below_iff]
  · have breaks := breaksOff_iff (threads ▸ word) fits
    rw [threads] at breaks
    unfold attempt
    by_cases sum : f.collect.1.length + c.flushThreads ≤ 2 ^ 64
    · rw [if_pos sum, if_neg (mt breaks.mp (Nat.not_lt.mpr sum))]
    · rw [if_neg sum, if_pos (breaks.mpr (Nat.not_le.mp sum))]
  · rw [UInt64.toNat_add, UInt64.toNat_ofNat', UInt64.toNat_ofNat']
    omega
  · exact shares_eq_chunks several some sum

/-- Settings that ask for so many flushing threads. -/
def threaded (threads : Nat) : Config := { Session.onePage with flushThreads := threads }

/-- Two dirty pages that are flushed by so many threads. -/
def bothDirty (threads : Nat) : Checkpoint.Checkpointer :=
  { twoPages with store := { twoPages.store with dirty := [0, 1] }, flushThreads := threads }

theorem numbers_in_range_behind_one :
    let old := (Record.numbered 1).line
    ∃ (after : Volume) (e : Engine),
      openWith (threaded 2) (.still 5) (Session.logOnly old) = (.ok e, after) ∧
      e.sequence.next.toNat = 2 ∧ e.nextTransaction.toNat = 2 ∧
      (bothDirty 2).attempt 5 0 = some ((bothDirty 2).cycle 5 0) ∧
      (shareSize 2 (bothDirty 2).collect.1.length).toNat = 1 := by
  intro old
  have directory : makeDirectory (threaded 2) (Session.logOnly old) =
      .ok (["data"], Session.logOnly old) := by rfl
  have known : recovered old = [.numbered 1] := by decide +kernel
  have marks : (recover old).2.lastLsn = 1 ∧ (recover old).2.lastTransaction = 1 := by decide +kernel
  have opens : (openWith (threaded 2) (.still 5) (Session.logOnly old)).1.isOk = true := by
    decide +kernel
  have collected : (bothDirty 2).collect.1.length = 2 := by decide
  rcases opened : openWith (threaded 2) (.still 5) (Session.logOnly old) with ⟨fault | e, after⟩
  · rw [opened] at opens
    cases opens
  · obtain ⟨lsns, transactions, cycles⟩ :=
      numbers_in_range_iff directory (Session.remains_logOnly old) opened (by decide)
    rw [known, marks.1] at lsns
    rw [known, marks.2] at transactions
    obtain ⟨goes, -, sizes⟩ := cycles (bothDirty 2) rfl (by decide)
    refine ⟨after, e, rfl, lsns.mpr (by decide), transactions.mpr (by decide), ?_, ?_⟩
    · exact (goes 5 0 _).trans (if_pos (by decide))
    · rw [collected]
      decide

/-- A log can hold the highest number, and the settings can ask for more threads than the word for the size
of a share has room for. -/
theorem numbers_leave_range :
    let old := ({ Record.numbered 1 with lsn := 18446744073709551615 } : Record).line
    let threads := 18446744073709551615
    (∃ (after : Volume) (e : Engine),
      openWith Session.onePage (.still 5) (Session.logOnly old) = (.ok e, after) ∧
      e.recovery.lastLsn.toNat + 1 = 2 ^ 64 ∧ e.sequence.next.toNat ≠ e.recovery.lastLsn.toNat + 1) ∧
    (threaded threads).validate = .ok () ∧ (bothDirty threads).collect.1.length = 2 ∧
      (shareSize threads 2).toNat = 0 ∧ (bothDirty threads).attempt 5 0 = none := by
  intro old threads
  refine ⟨?_, by rfl, by decide, by decide, if_pos (by decide)⟩
  have computed : ((openWith Session.onePage (.still 5) (Session.logOnly old)).1.map fun e =>
      (e.recovery.lastLsn, e.sequence.next)).toOption = some (18446744073709551615, 1) := by
    decide +kernel
  rcases opened : openWith Session.onePage (.still 5) (Session.logOnly old) with ⟨fault | e, after⟩
  · rw [opened] at computed
    cases computed
  · rw [opened] at computed
    obtain ⟨last, next⟩ := Prod.mk.inj (Option.some.inj computed)
    refine ⟨after, e, rfl, ?_, ?_⟩
    · rw [last]
      decide
    · rw [last, next]
      decide

end Engine

end PageJournal
