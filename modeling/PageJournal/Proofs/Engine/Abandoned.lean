import PageJournal.Checkpoint.Observed
import PageJournal.Proofs.Engine.LateDrain
import PageJournal.Proofs.Page.Gathering

/-! A write that fails changes nothing, and the transaction that asked for it is abandoned: its intent is all
that will be logged, and an error is all that is counted. -/
namespace PageJournal

open Volume PageStore

/-- An engine that has abandoned a transaction, over what the failed write left of its store. -/
structure Engine.Abandoned (e : Engine) (t : Transaction) (store : PageStore) (after : Engine) : Prop where
  records : after.buffer.records = e.buffer.records ++ [t.record t.lsn e.now.1]
  uncommitted : (t.record t.lsn e.now.1).committed = false
  sequence : after.sequence = e.sequence
  store : after.store = store.count .errors
  counters : ∀ c, after.store.counters.get c =
    if c = .errors then e.store.counters.get c + 1 else e.store.counters.get c

variable {s after : PageStore} {page : PageId} {payload : Bytes} {fault : Fault}

theorem PageStore.untouched_of_writeUnder {held : List Lock} (sound : s.disk.Sound)
    (unlinked : ∀ place, s.disk.LeadsTo s.dir place → Unlinked place s.disk)
    (failed : Checkpoint.writeUnder held page payload s = (.error fault, after)) : Untouched page s after := by
  unfold Checkpoint.writeUnder at failed
  split at failed
  · cases failed
    exact .refl page s
  · split at failed
    · cases failed
      exact .refl page s
    · exact untouched_of_write sound unlinked failed

theorem Engine.execute_failed {e : Engine} {t : Transaction} {trouble : Trouble} (writes : t.operation.isWrite)
    (failed : e.store.write t.page t.payload trouble = (.error fault, after)) :
    e.execute t trouble = (.error fault, ({ e.log t t.lsn with store := after } : Engine).abandon t fault) := by
  have store : (e.log t t.lsn).store = e.store := rfl
  unfold Engine.execute Engine.apply Engine.onStore
  simp only [writes, if_true, store, failed]

/-- A write that fails, for whatever reason, leaves every page, the dirty pages, the cache and the counters as
they were. A transaction that is abandoned for it adds one record, which tells that it has not committed, takes
no further number, and counts one error. -/
theorem PageStore.failed_write_changes_nothing (sound : s.disk.Sound)
    (unlinked : ∀ place, s.disk.LeadsTo s.dir place → Unlinked place s.disk) (page : PageId)
    (payload : Bytes) :
    (∀ trouble fault after, s.write page payload trouble = (.error fault, after) →
      Untouched page s after ∧
      ∀ (e : Engine) (t : Transaction), e.store = s → t.operation.isWrite → t.page = page →
        t.payload = payload → t.committed = false →
        ∃ last, e.execute t trouble = (.error fault, last) ∧ e.Abandoned t after last) ∧
    ∀ held fault after, Checkpoint.writeUnder held page payload s = (.error fault, after) →
      Untouched page s after := by
  refine ⟨fun trouble fault after failed => ?_, fun held fault after => untouched_of_writeUnder sound unlinked⟩
  have untouched := untouched_of_write sound unlinked failed
  refine ⟨untouched, ?_⟩
  rintro e t rfl writes rfl rfl uncommitted
  have counters : after.counters = e.store.counters := by rw [untouched.frame]
  exact ⟨_, Engine.execute_failed writes failed, Log.Buffer.records_add _ _, uncommitted, rfl, rfl,
    fun c => counters ▸ Counters.get_tick after.counters .errors c⟩

/-- The second of two pages is dirty and cached when a write of it is refused at the rename. -/
theorem PageStore.failed_write_changes_nothing_rename :
    let s : PageStore := { Checkpoint.Checkpointer.twoPages.store with
      dirty := [1], cache := (Cache.create 2 .evictOldest).offer 1 [0, 0, 0, 0] }
    let e : Engine := { Engine.leftover (.file 0 []) with store := s }
    let refused : Trouble := fun call => if call = .rename then some .noSpace else none
    let t : Transaction := ⟨2, 0, .update, 1, [9, 9], 2, false⟩
    ∃ after last, s.write 1 [9, 9] refused = (.error (.io .noSpace), after) ∧
      after.disk.read (after.file 1) = .ok [0, 0, 0, 0] ∧ after.dirty = [1] ∧ after.cache.ids = [1] ∧
      e.execute t refused = (.error (.io .noSpace), last) ∧
      last.buffer.records.map (·.committed) = [false, false] ∧ last.sequence = e.sequence ∧
      last.store.counters.get .errors = 1 ∧ last.store.counters.get .writes = 0 := by
  intro s e refused t
  have sound : s.disk.Sound := ⟨by decide, by decide⟩
  have unlinked : ∀ place, s.disk.LeadsTo s.dir place → Unlinked place s.disk :=
    fun place _ => unlinked_of_entries (by simp [s, Checkpoint.Checkpointer.twoPages])
  have outcome : (s.write 1 [9, 9] refused).1 = .error (.io .noSpace) := by decide +kernel
  rcases failed : s.write 1 [9, 9] refused with ⟨cause | ⟨⟩, after⟩
  all_goals
    rw [failed] at outcome
    cases outcome
  obtain ⟨untouched, abandons⟩ :=
    (failed_write_changes_nothing sound unlinked 1 [9, 9]).1 refused _ after failed
  obtain ⟨last, executed, abandoned⟩ := abandons e t rfl rfl rfl rfl rfl
  refine ⟨after, last, rfl, (untouched.reads 1).trans (by rfl), by rw [untouched.frame],
    by rw [untouched.frame]; rfl, executed, ?_, abandoned.sequence, abandoned.counters .errors,
    abandoned.counters .writes⟩
  rw [abandoned.records]
  rfl

end PageJournal
