import PageJournal.Proofs.History
import PageJournal.Proofs.Page.Housed

/-! The dirty pages of a store are told by what was done with it. A page is dirty from a write that went
through to the next flush of it that went through. Nothing else matters: not what was read, not what failed,
and not what others did to the files. -/
namespace PageJournal

/-- What happens to a page store: calls, with what the environment refuses meanwhile, and between them
whatever others make of the volume. -/
inductive Use where
  | read (page : PageId)
  | fetch (page : PageId)
  | inspect (page : PageId)
  | write (page : PageId) (payload : Bytes) (trouble : Trouble)
  | flush (page : PageId) (trouble : Trouble)
  | meddle (disk : Volume)

namespace Use

/-- The uses that only look at a page. -/
def looks : Use → Bool
  | .read _ | .fetch _ | .inspect _ => true
  | .write .. | .flush .. | .meddle _ => false

/-- A use that stored new bytes of a page. -/
def Wrote (page : PageId) : Use × Bool → Prop
  | (.write p _ _, true) => p = page
  | _ => False

/-- A use that made a page durable. -/
def Flushed (page : PageId) : Use × Bool → Prop
  | (.flush p _, true) => p = page
  | _ => False

/-- A page was written and has not been flushed since. -/
def Pending (page : PageId) (history : List (Use × Bool)) : Prop :=
  Since (Wrote page) (Flushed page) history

theorem pending_concat {page : PageId} {history : List (Use × Bool)} {last : Use × Bool} :
    Pending page (history ++ [last]) ↔ Wrote page last ∨ Pending page history ∧ ¬ Flushed page last :=
  since_concat

end Use

namespace PageStore

/-- Whether a use goes through, and what it leaves. -/
def use (s : PageStore) : Use → Bool × PageStore
  | .read page => ((s.read page).1.isOk, (s.read page).2)
  | .fetch page => ((s.fetch page).1.isOk, (s.fetch page).2)
  | .inspect page => ((s.page page).1.isOk, (s.page page).2)
  | .write page payload trouble => ((s.write page payload trouble).1.isOk, (s.write page payload trouble).2)
  | .flush page trouble => ((s.flush page trouble).1.isOk, (s.flush page trouble).2)
  | .meddle disk => (true, { s with disk })

/-- The history of some uses, and what they leave. -/
def uses : List Use → PageStore → List (Use × Bool) × PageStore
  | [], s => ([], s)
  | u :: rest, s => ((u, (s.use u).1) :: (uses rest (s.use u).2).1, (uses rest (s.use u).2).2)

/-- How a use can change the dirty pages. -/
inductive Marks (s : PageStore) : Use × Bool → List PageId → Prop where
  | wrote {page payload trouble} (inside : page < s.pageCount) :
    Marks s (.write page payload trouble, true) (insertPage page s.dirty)
  | flushed {page trouble} : Marks s (.flush page trouble, true) (s.dirty.filter (· != page))
  | failed {u} : Marks s (u, false) s.dirty
  | looked {u ok} (looks : u.looks = true) : Marks s (u, ok) s.dirty
  | meddled {disk} : Marks s (.meddle disk, true) s.dirty

/-- A store whose dirty pages are those that the history leaves pending. -/
structure Tracks (history : List (Use × Bool)) (s : PageStore) : Prop where
  ascending : s.dirty.Pairwise (· < ·)
  exact : ∀ page, page ∈ s.dirty ↔ Use.Pending page history
  inside : ∀ page ∈ s.dirty, page < s.pageCount

variable {s : PageStore} {history : List (Use × Bool)}

theorem isDirty_iff {page : PageId} : s.isDirty page = true ↔ page ∈ s.dirty := List.contains_iff_mem

theorem use_frame (s : PageStore) (u : Use) : ∃ disk dirty cache counters,
    (s.use u).2 = { s with disk, dirty, cache, counters } ∧ Marks s (u, (s.use u).1) dirty := by
  cases u with
  | read page =>
    obtain ⟨counters, frame⟩ := s.read_frame page
    exact ⟨_, _, _, counters, frame, .looked rfl⟩
  | fetch page =>
    obtain ⟨cache, counters, frame⟩ := s.fetch_frame page
    exact ⟨_, _, cache, counters, frame, .looked rfl⟩
  | inspect page =>
    obtain ⟨counters, frame⟩ := s.page_frame page
    exact ⟨_, _, _, counters, frame, .looked rfl⟩
  | write page payload trouble =>
    rcases s.write_cases page payload trouble with ⟨fault, refused⟩ | ⟨cause, -, failed⟩ | ⟨inside, done⟩
    · rw [use, refused]
      exact ⟨_, _, _, _, rfl, .failed⟩
    · rw [use, failed]
      exact ⟨_, _, _, _, rfl, .failed⟩
    · rw [use, done]
      exact ⟨_, _, _, _, rfl, .wrote inside⟩
  | flush page trouble =>
    rcases s.flush_cases page trouble with ⟨fault, refused⟩ | ⟨bytes, cause, -, failed⟩ | ⟨bytes, -, done⟩
    · rw [use, refused]
      exact ⟨_, _, _, _, rfl, .failed⟩
    · rw [use, failed]
      exact ⟨_, _, _, _, rfl, .failed⟩
    · rw [use, done]
      exact ⟨_, _, _, _, rfl, .flushed⟩
  | meddle disk => exact ⟨disk, _, _, _, rfl, .meddled⟩

/-- What only looks at pages, and what fails, leaves the dirty pages alone. -/
theorem use_dirty {u : Use} (idle : u.looks = true ∨ (s.use u).1 = false) :
    (s.use u).2.dirty = s.dirty := by
  obtain ⟨disk, dirty, cache, counters, frame, marks⟩ := s.use_frame u
  rw [frame]
  generalize (s.use u).1 = ok at idle marks
  cases marks with
  | failed | looked | meddled => rfl
  | wrote | flushed => rcases idle with ⟨⟨⟩⟩ | ⟨⟨⟩⟩

theorem Tracks.marks {u : Use × Bool} {dirty : List PageId} (tracks : s.Tracks history)
    (marks : s.Marks u dirty) {disk : Volume} {cache : Cache} {counters : Counters} :
    Tracks (history ++ [u]) { s with disk, dirty, cache, counters } := by
  have kept (unwritten : ∀ page, ¬ Use.Wrote page u) (unflushed : ∀ page, ¬ Use.Flushed page u) :
      Tracks (history ++ [u]) { s with disk, cache, counters } := by
    refine ⟨tracks.ascending, fun page => ?_, tracks.inside⟩
    rw [Use.pending_concat, ← tracks.exact]
    simp [unwritten page, unflushed page]
  cases marks with
  | @wrote page payload trouble inside =>
    refine ⟨ascending_insertPage tracks.ascending, fun p => ?_, fun p mem => ?_⟩
    · rw [Use.pending_concat, ← tracks.exact, mem_insertPage, eq_comm]
      simp [Use.Wrote, Use.Flushed]
    · rcases mem_insertPage.mp mem with rfl | mem
      · exact inside
      · exact tracks.inside p mem
  | @flushed page trouble =>
    refine ⟨tracks.ascending.filter _, fun p => ?_, fun p mem => ?_⟩
    · rw [Use.pending_concat, ← tracks.exact, List.mem_filter, bne_iff_ne]
      simp [Use.Wrote, Use.Flushed, eq_comm]
    · exact tracks.inside p (List.mem_filter.mp mem).1
  | @failed u => exact kept (fun _ => by cases u <;> exact id) fun _ => by cases u <;> exact id
  | @looked u ok looks =>
    cases u with
    | read | fetch | inspect => exact kept (fun _ => id) fun _ => id
    | write | flush | meddle => cases looks
  | meddled => exact kept (fun _ => id) fun _ => id

theorem Tracks.uses (tracks : s.Tracks history) (us : List Use) :
    Tracks (history ++ (s.uses us).1) (s.uses us).2 := by
  induction us generalizing s history with
  | nil => rwa [PageStore.uses, List.append_nil]
  | cons u rest ih =>
    obtain ⟨disk, dirty, cache, counters, frame, marks⟩ := s.use_frame u
    have next : Tracks (history ++ [(u, (s.use u).1)]) (s.use u).2 := by
      rw [frame]
      exact tracks.marks marks
    rw [PageStore.uses, List.append_cons]
    exact ih next

theorem uses_pageCount (us : List Use) (s : PageStore) : (s.uses us).2.pageCount = s.pageCount := by
  induction us generalizing s with
  | nil => rfl
  | cons u rest ih =>
    obtain ⟨disk, dirty, cache, counters, frame, -⟩ := s.use_frame u
    rw [uses, ih, frame]

/-- Whatever is done with a store since it was opened, its dirty pages are, in ascending order, those that
were written and not flushed since. Reads and failures do not count. -/
theorem dirty_exactly {c : Config} {dir : Path} {cache : Cache} {counters : Counters} {v w : Volume}
    {t : Trouble} {first : PageStore} (opened : openAt c dir cache counters v t = (.ok first, w))
    (us : List Use) :
    let history := (first.uses us).1
    let s := (first.uses us).2
    s.dirty.Pairwise (· < ·) ∧
    (∀ page, page ∈ s.dirty ↔ Use.Pending page history) ∧
    (∀ page, s.isDirty page = true ↔ page ∈ s.dirty) ∧
    (∀ page shown, (s.page page).1 = .ok shown → (shown.dirty = true ↔ page ∈ s.dirty)) ∧
    (s.pageCount = c.pageCount ∧ ∀ page ∈ s.dirty, page < s.pageCount) ∧
    ∀ u : Use, u.looks = true ∨ (s.use u).1 = false → (s.use u).2.dirty = s.dirty := by
  obtain ⟨_, _, _, _, -, -, -, -, rfl⟩ := openAt_eq_ok opened
  have fresh : Tracks [] ⟨w, dir, c.pageSize, c.pageCount, [], cache, counters⟩ :=
    ⟨.nil, fun page => iff_of_false List.not_mem_nil not_since_nil, by simp⟩
  have tracks := fresh.uses us
  have count := uses_pageCount us ⟨w, dir, c.pageSize, c.pageCount, [], cache, counters⟩
  rw [List.nil_append] at tracks
  refine ⟨tracks.ascending, tracks.exact, fun page => isDirty_iff, fun page shown told => ?_,
    ⟨count, tracks.inside⟩, fun u => use_dirty⟩
  rw [page_dirty told]
  exact isDirty_iff

/-- One page is written and flushed. Two more stay dirty: the flush of one is refused, and the file of the
other is gone when it is to be flushed. -/
theorem dirty_exactly_refused :
    let c : Config := { pageSize := 2, pageCount := 3 }
    let us : List Use := [.write 2 [7] .none, .write 9 [1] .none, .write 0 [8] .none, .flush 2 .none,
      .write 1 [3, 3, 3] .none, .flush 0 fun call => if call = .rename then some .noSpace else none,
      .write 1 [5] .none, .meddle ⟨[], 0⟩, .flush 1 .none]
    ∃ first w, openAt c ["pages"] (.create 1 .evictOldest) {} ⟨[], 0⟩ .none = (.ok first, w) ∧
      (first.uses us).1.map (·.2) = [true, false, true, true, false, false, true, true, false] ∧
      (first.uses us).2.dirty = [0, 1] ∧ Use.Pending 0 (first.uses us).1 ∧
      ¬ Use.Pending 2 (first.uses us).1 := by
  intro c us
  have seen : (openAt c ["pages"] (.create 1 .evictOldest) {} ⟨[], 0⟩ .none).1.toOption.map
      (fun first => ((first.uses us).1.map (·.2), (first.uses us).2.dirty)) =
        some ([true, false, true, true, false, false, true, true, false], [0, 1]) := by
    decide +kernel
  rcases opened : openAt c ["pages"] (.create 1 .evictOldest) {} ⟨[], 0⟩ .none with ⟨_ | first, w⟩
  all_goals rw [opened] at seen
  · cases seen
  · obtain ⟨outcomes, dirty⟩ := Prod.mk.inj (Option.some.inj seen)
    have exact := (dirty_exactly opened us).2.1
    exact ⟨first, w, rfl, outcomes, dirty, (exact 0).mp (by rw [dirty]; decide),
      fun pending => absurd ((exact 2).mpr pending) (by rw [dirty]; decide)⟩

end PageStore

end PageJournal
