import PageJournal.Checkpoint.Cycle
/-!
Operations that are watched while they run. A watched run stops each time it has added to a
counter, tells which locks it holds there, and goes on from whatever state it is given back. Other
operations can be run at such a stop; what needs a lock that is held times out. Main statement: a
run that nobody interferes with does what the plain operation does.
-/
namespace PageJournal.Checkpoint

/-- A run that stops at every count. -/
inductive Watched (α : Type) where
  | done (result : α) (state : Checkpointer)
  | counted (counter : Counter) (held : List Lock) (state : Checkpointer)
      (resume : Checkpointer → Watched α)

namespace Watched

variable {α β : Type}

def finish : Watched α → α × Checkpointer
  | done result c => (result, c)
  | counted _ _ c resume => (resume c).finish

/-- Runs `act` once, the first time that `counter` is added to. -/
def interrupt (counter : Counter) (act : List Lock → Checkpointer → β × Checkpointer) :
    Watched α → α × Option β × Checkpointer
  | done result c => (result, none, c)
  | counted here held c resume =>
    if here = counter then
      let (observed, c) := act held c
      let (result, c) := (resume c).finish
      (result, some observed, c)
    else (resume c).interrupt counter act

end Watched

/-- A write while other locks are held elsewhere. -/
def writeUnder (held : List Lock) (page : PageId) (payload : Bytes) (s : PageStore) :
    Except Fault Unit × PageStore :=
  match s.prepare page payload with
  | .error fault => (.error fault, s)
  | .ok _ =>
    if held.contains .pagesShared then (.error (.lockTimeout .pagesExclusive), s)
    else s.write page payload

/-- A flush while other locks are held elsewhere. -/
def flushUnder (held : List Lock) (page : PageId) (s : PageStore) :
    Except Fault Page × PageStore :=
  match s.checkRange page with
  | .error fault => (.error fault, s)
  | .ok _ =>
    if held.contains .pagesShared then (.error (.lockTimeout .pagesExclusive), s)
    else s.flush page

namespace Checkpointer

/-- A cycle while other locks are held elsewhere. -/
def cycleUnder (held : List Lock) (now : UInt64) (thread : UInt32) (c : Checkpointer) :
    Except Fault Report × Checkpointer :=
  if held.contains .checkpoint then (.error (.lockTimeout .checkpoint), c)
  else c.cycleWith (flushUnder held) now thread

/-- The same checkpointer with another state of its store. -/
def withStore (c : Checkpointer) (store : PageStore) : Checkpointer := { c with store }

def onStore {α : Type} (act : PageStore → α × PageStore) (c : Checkpointer) : α × Checkpointer :=
  let (result, store) := act c.store
  (result, c.withStore store)

/-- A counted read of a page's file under the shared lock, and what follows it there. -/
def watchRead {α : Type} (page : PageId) (c : Checkpointer)
    (done : Bytes → Checkpointer → α × Checkpointer) : Watched (Except Fault α) :=
  match c.store.readFile page with
  | .error fault => .done (.error fault) c
  | .ok bytes =>
    .counted .reads [.pagesShared] (c.count .reads) fun c =>
      let (result, c) := done bytes c
      .done (.ok result) c

def watchedRead (page : PageId) (c : Checkpointer) : Watched (Except Fault Bytes) :=
  match c.store.checkRange page with
  | .error fault => .done (.error fault) c
  | .ok _ => c.watchRead page fun bytes c => (bytes, c)

def watchedFetch (page : PageId) (c : Checkpointer) : Watched (Except Fault Bytes) :=
  match c.store.checkRange page with
  | .error fault => .done (.error fault) c
  | .ok _ =>
    match c.store.lookup page with
    | (some bytes, store) => .counted .cacheHits [] (c.withStore store) (.done (.ok bytes))
    | (none, store) =>
      .counted .cacheMisses [] (c.withStore store) fun c =>
        c.watchRead page fun bytes c => (bytes, c.withStore (c.store.populate page bytes))

def watchedPage (page : PageId) (c : Checkpointer) : Watched (Except Fault Page) :=
  match c.store.checkRange page with
  | .error fault => .done (.error fault) c
  | .ok _ => c.watchRead page fun bytes c => (c.store.inspected page bytes, c)

def watchedWrite (page : PageId) (payload : Bytes) (c : Checkpointer) :
    Watched (Except Fault Unit) :=
  match c.store.prepare page payload with
  | .error fault => .done (.error fault) c
  | .ok prepared =>
    match PageStore.writeLocked .none c.store prepared with
    | (.error fault, store) => .done (.error fault) (c.withStore store)
    | (.ok _, store) =>
      .counted .writes [] ((c.withStore store).count .writes) (.done (.ok ()))

/-- A watched `PageStore.flush`, which counts nothing. -/
def watchedFlush (page : PageId) (c : Checkpointer) : Watched (Except Fault Page) :=
  let (result, c) := c.onStore fun s => s.flush page
  .done result c

/-- Counts one failure after another under the checkpoint lock. -/
def watchFailures {α : Type} (next : Checkpointer → Watched α) :
    List PageId → Checkpointer → Watched α
  | [], c => next c
  | _ :: rest, c => .counted .errors [.checkpoint] (c.count .errors) (watchFailures next rest)

def watchedCycle (now : UInt64) (thread : UInt32) (c : Checkpointer) :
    Watched (Except Fault Report) :=
  let (dirtyPages, outcomes, c) := c.flushAll fun page s => s.flush page
  let failed := failures outcomes
  let flushed := outcomes.length - failed.length
  if failed.isEmpty then
    match c.logRecord now thread dirtyPages with
    | (.error fault, c) => .done (.error fault) c
    | (.ok record, c) =>
      .counted .checkpoints [] (c.count .checkpoints) fun c =>
        let (report, c) := c.conclude now record flushed
        .done (.ok report) c
  else
    c |> watchFailures (fun c =>
      let (report, c) := c.giveUp now flushed failed
      .done (.ok report) c) failed

theorem finish_watchRead {α : Type} (page : PageId) (c : Checkpointer)
    (done : Bytes → Checkpointer → α × Checkpointer) :
    (c.watchRead page done).finish =
      match c.store.readFile page with
      | .error fault => (.error fault, c)
      | .ok bytes => ((done bytes (c.count .reads)).map .ok id) := by
  unfold watchRead
  cases c.store.readFile page <;> rfl

theorem finish_watchFailures {α : Type} (next : Checkpointer → Watched α) (failed : List PageId)
    (c : Checkpointer) :
    (watchFailures next failed c).finish =
      (next (failed.foldl (fun c _ => c.count .errors) c)).finish := by
  induction failed generalizing c with
  | nil => rfl
  | cons _ rest ih => exact ih _

theorem finish_watchedRead (page : PageId) (c : Checkpointer) :
    (c.watchedRead page).finish = c.onStore (·.read page) := by
  simp only [watchedRead, onStore, PageStore.read]
  cases c.store.checkRange page with
  | error fault => rfl
  | ok _ =>
    simp only [finish_watchRead, PageStore.readCounted]
    cases c.store.readFile page <;> rfl

theorem finish_watchedFetch (page : PageId) (c : Checkpointer) :
    (c.watchedFetch page).finish = c.onStore (·.fetch page) := by
  simp only [watchedFetch, onStore, PageStore.fetch]
  cases c.store.checkRange page with
  | error fault => rfl
  | ok _ =>
    rcases c.store.lookup page with ⟨_ | bytes, store⟩
    · simp only [Watched.finish, finish_watchRead, PageStore.fetchMissed, PageStore.readCounted,
        withStore]
      cases store.readFile page <;> rfl
    · rfl

theorem finish_watchedPage (page : PageId) (c : Checkpointer) :
    (c.watchedPage page).finish = c.onStore (·.page page) := by
  simp only [watchedPage, onStore, PageStore.page]
  cases c.store.checkRange page with
  | error fault => rfl
  | ok _ =>
    simp only [finish_watchRead, PageStore.readCounted]
    cases c.store.readFile page <;> rfl

theorem finish_watchedWrite (page : PageId) (payload : Bytes) (c : Checkpointer) :
    (c.watchedWrite page payload).finish = c.onStore (·.write page payload) := by
  simp only [watchedWrite, onStore, PageStore.write]
  cases c.store.prepare page payload with
  | error fault => rfl
  | ok prepared =>
    dsimp only
    rcases PageStore.writeLocked .none c.store prepared with ⟨_ | _, store⟩ <;> rfl

theorem finish_watchedCycle (now : UInt64) (thread : UInt32) (c : Checkpointer) :
    (c.watchedCycle now thread).finish = c.cycle now thread := by
  simp only [watchedCycle, cycle, cycleWith]
  split
  · rcases (Checkpointer.logRecord _ _ _ _) with ⟨_ | _, c⟩ <;> rfl
  · rw [finish_watchFailures]
    rfl

end Checkpointer

end PageJournal.Checkpoint
