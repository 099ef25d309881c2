import PageJournal.Page.Store
import PageJournal.Proofs.Outcome

/-! All that a call on a page store can come to. What looks at pages changes the cache and the counters at
most. A write and a flush that fail change the volume at most. -/
namespace PageJournal.PageStore

theorem readCounted_frame (s : PageStore) (page : PageId) :
    ∃ counters, (s.readCounted page).2 = { s with counters } := by
  unfold readCounted
  split
  · exact ⟨_, rfl⟩
  · exact ⟨_, rfl⟩

theorem read_frame (s : PageStore) (page : PageId) : ∃ counters, (s.read page).2 = { s with counters } := by
  unfold read
  split
  · exact ⟨_, rfl⟩
  · exact s.readCounted_frame page

theorem page_frame (s : PageStore) (id : PageId) : ∃ counters, (s.page id).2 = { s with counters } := by
  obtain ⟨counters, frame⟩ := s.readCounted_frame id
  unfold PageStore.page
  split
  · exact ⟨_, rfl⟩
  · split
    all_goals
      next read =>
      rw [read] at frame
      exact ⟨counters, frame⟩

/-- What is told of a page is told of the store as it is. -/
theorem page_dirty {s : PageStore} {id : PageId} {p : Page} (told : (s.page id).1 = .ok p) :
    p.dirty = s.isDirty id := by
  obtain ⟨counters, frame⟩ := s.readCounted_frame id
  unfold PageStore.page at told
  split at told
  · cases told
  · split at told
    · next read =>
      rw [read] at frame
      obtain rfl := frame
      cases told
      rfl
    · cases told

theorem fetch_frame (s : PageStore) (page : PageId) :
    ∃ cache counters, (s.fetch page).2 = { s with cache, counters } := by
  unfold fetch
  split
  · exact ⟨_, _, rfl⟩
  · unfold lookup
    rcases s.cache.lookupCounted s.counters page with ⟨_ | bytes, cache, counters⟩
    · dsimp only
      unfold fetchMissed
      obtain ⟨counters, frame⟩ := readCounted_frame { s with cache, counters } page
      split
      all_goals
        next read =>
        rw [read] at frame
        obtain rfl := frame
        exact ⟨_, _, rfl⟩
    · exact ⟨_, _, rfl⟩

theorem checkRange_eq_ok {s : PageStore} {page : PageId} : s.checkRange page = .ok () ↔ page < s.pageCount := by
  unfold checkRange
  split
  · next out => simpa using out
  · next inside => simpa using inside

/-- The page that a write is to store has the payload and its padding. -/
theorem prepare_eq_ok {s : PageStore} {page : PageId} {payload : Bytes} {prepared : Page}
    (done : s.prepare page payload = .ok prepared) : page < s.pageCount ∧
      payload.length ≤ s.pageSize ∧ prepared = ⟨page, padded s.pageSize payload, true⟩ := by
  obtain ⟨⟨⟩, inside, made⟩ := bind_eq_ok.mp done
  unfold Page.ofPayload at made
  split at made
  · cases made
  · next fits =>
    cases made
    exact ⟨checkRange_eq_ok.mp inside, Nat.not_lt.mp fits, rfl⟩

/-- A write is refused at once, or its bytes do not come to the page's file, or it goes through. -/
theorem write_cases (s : PageStore) (page : PageId) (payload : Bytes) (t : Trouble) :
    (∃ fault, s.write page payload t = (.error fault, s)) ∨
    (∃ cause, (s.disk.replace t (s.file page) (padded s.pageSize payload) false).1 = .error cause ∧
      s.write page payload t = (.error (.io cause), { s with
        disk := (s.disk.replace t (s.file page) (padded s.pageSize payload) false).2 })) ∨
    page < s.pageCount ∧
      s.write page payload t = (.ok (), { s with
        disk := (s.disk.replace t (s.file page) (padded s.pageSize payload) false).2
        dirty := insertPage page s.dirty
        cache := s.cache.afterWrite page (padded s.pageSize payload)
        counters := s.counters.tick .writes }) := by
  unfold write
  rcases preparing : s.prepare page payload with fault | prepared
  · exact .inl ⟨fault, rfl⟩
  · obtain ⟨inside, -, rfl⟩ := prepare_eq_ok preparing
    dsimp only [writeLocked]
    rw [replaceFile_eq]
    rcases replaced : (s.disk.replace t (s.file page) (padded s.pageSize payload) false).1 with cause | _
    · exact .inr (.inl ⟨cause, rfl, rfl⟩)
    · exact .inr (.inr ⟨inside, rfl⟩)

/-- A flush is refused at once, or the bytes of the page do not come to its file, or it goes through. -/
theorem flush_cases (s : PageStore) (page : PageId) (t : Trouble) :
    (∃ fault, s.flush page t = (.error fault, s)) ∨
    (∃ bytes cause, s.readFile page = .ok bytes ∧
      s.flush page t = (.error (.io cause), { s with
        disk := (s.disk.replace t (s.file page) bytes true).2 })) ∨
    ∃ bytes, s.readFile page = .ok bytes ∧
      s.flush page t = (.ok ⟨page, bytes, false⟩, { s with
        disk := (s.disk.replace t (s.file page) bytes true).2
        dirty := s.dirty.filter (· != page) }) := by
  unfold flush
  split
  · exact .inl ⟨_, rfl⟩
  · split
    · exact .inl ⟨_, rfl⟩
    · next bytes read =>
      rw [replaceFile_eq]
      rcases (s.disk.replace t (s.file page) bytes true).1 with cause | _
      · exact .inr (.inl ⟨bytes, cause, read, rfl⟩)
      · exact .inr (.inr ⟨bytes, read, rfl⟩)

/-- A flush works on the volume and on the dirty pages only. -/
theorem flush_frame (s : PageStore) (page : PageId) (t : Trouble) :
    ∃ disk dirty, (s.flush page t).2 = { s with disk, dirty } := by
  rcases s.flush_cases page t with ⟨fault, refused⟩ | ⟨bytes, cause, -, failed⟩ | ⟨bytes, -, done⟩
  · exact ⟨_, _, congrArg Prod.snd refused⟩
  · exact ⟨_, _, congrArg Prod.snd failed⟩
  · exact ⟨_, _, congrArg Prod.snd done⟩

end PageJournal.PageStore
