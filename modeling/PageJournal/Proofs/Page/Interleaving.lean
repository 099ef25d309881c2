import Mathlib.Data.List.Induction
import PageJournal.Proofs.Checkpoint.Transparent

/-! Reads, fetches, writes and flushes of one page store, all under way at once. Each is a chain of
sections, and between two sections of one call any others may run. A look-up in the cache takes no lock of
the store; a file is read with the lock shared; a write holds it alone while it replaces the page's file
and then refreshes the cached copy. -/
namespace PageJournal

/-- What is asked of the store. -/
inductive Request where
  | read (page : PageId)
  | fetch (page : PageId)
  | write (page : PageId) (payload : Bytes)
  | flush (page : PageId)
  deriving DecidableEq

def Request.page : Request → PageId
  | .read page | .fetch page | .write page _ | .flush page => page

def Request.lock : Request → Lock
  | .read _ | .fetch _ => .pagesShared
  | .write _ _ | .flush _ => .pagesExclusive

/-- Refuses what needs no look at a file. -/
def Request.check (s : PageStore) : Request → Except Fault Unit
  | .write page payload => (s.prepare page payload).map fun _ => ()
  | .read page | .fetch page | .flush page => s.checkRange page

/-- How far a call has come. -/
inductive Phase where
  | accepted
  /-- A fetch that has found no copy in the cache. -/
  | missed
  /-- A write that holds the lock alone and has replaced the file, behind so many other writes. -/
  | replaced (turn : Nat) (page : Page)
  /-- It has refreshed the cached copy and let go of the lock. -/
  | released (turn : Nat)
  | answered (bytes : Bytes)
  | done
  | failed (fault : Fault)
  deriving DecidableEq

def Phase.ended {α : Type} (reached : α → Phase) : Except Fault α → Phase
  | .ok a => reached a
  | .error fault => .failed fault

/-- Nothing has come back yet, or nothing but a fault or the end of a write or a flush. -/
def Phase.plain : Phase → Bool
  | .accepted | .missed | .done | .failed _ => true
  | .replaced _ _ | .released _ | .answered _ => false

structure Visit where
  request : Request
  /-- How many writes had been acknowledged when it was called. -/
  since : Nat
  phase : Phase

/-- The lock that it waits for. -/
def Visit.waitsFor? (v : Visit) : Option Lock :=
  match v.phase, v.request with
  | .accepted, .fetch _ => none
  | .accepted, request | .missed, request => some request.lock
  | _, _ => none

/-- A store that any number of callers use. -/
structure Traffic where
  store : PageStore
  /-- The visit that holds the lock alone. -/
  owner : Option Nat
  visits : List Visit
  /-- The pages that were written, in the order in which their files were replaced. -/
  written : List Page
  /-- Of these the ones that have returned without a fault, in the order of their return. -/
  acknowledged : List Nat

inductive Move where
  | call (request : Request)
  /-- The visit runs its next section, with what the environment refuses meanwhile. -/
  | proceed (i : Nat) (trouble : Trouble)
  /-- The visit waits no longer for the lock. -/
  | giveUp (i : Nat)

namespace Traffic

def start (s : PageStore) : Traffic := ⟨s, none, [], [], []⟩

/-- The visit comes to this phase and leaves this store behind. -/
def become (s : Traffic) (i : Nat) (v : Visit) (store : PageStore) (phase : Phase) : Traffic :=
  { s with store, visits := s.visits.set i { v with phase } }

def answer (s : Traffic) (i : Nat) (v : Visit) (result : Except Fault Bytes × PageStore) : Traffic :=
  s.become i v result.2 (.ended .answered result.1)

def replace (s : Traffic) (i : Nat) (v : Visit) (trouble : Trouble) (page : Page) : Traffic :=
  match s.store.replaceFile trouble page.id page.bytes false with
  | (.error fault, store) => s.become i v store (.failed fault)
  | (.ok _, store) =>
    { s.become i v store (.replaced s.written.length page) with
      owner := some i
      written := s.written ++ [page] }

/-- The first section of a call that was accepted. -/
def enter (s : Traffic) (i : Nat) (v : Visit) (trouble : Trouble) : Option Traffic :=
  match v.request with
  | .fetch page =>
    match s.store.lookup page with
    | (some bytes, store) => some (s.become i v store (.answered bytes))
    | (none, store) => some (s.become i v store .missed)
  | .read page => if s.owner.isSome then none else some (s.answer i v (s.store.readCounted page))
  | .write page payload =>
    if s.owner.isSome then none
    else (s.store.prepare page payload).toOption.map (s.replace i v trouble)
  | .flush page =>
    if s.owner.isSome then none
    else some (s.become i v (s.store.flush page trouble).2
      (.ended (fun _ => .done) (s.store.flush page trouble).1))

/-- The next section of a visit, if it can run now. -/
def advance (s : Traffic) (i : Nat) (v : Visit) (trouble : Trouble) : Option Traffic :=
  match v.phase with
  | .accepted => s.enter i v trouble
  | .missed =>
    if s.owner.isSome then none else some (s.answer i v (s.store.fetchMissed v.request.page))
  | .replaced turn page =>
    some { s.become i v ((s.store.markDirty page.id).refreshCache page.id page.bytes)
      (.released turn) with owner := none }
  | .released turn =>
    some { s.become i v (s.store.count .writes) .done with acknowledged := s.acknowledged ++ [turn] }
  | .answered _ | .done | .failed _ => none

def step (s : Traffic) : Move → Option Traffic
  | .call request =>
    some { s with visits := s.visits ++
      [⟨request, s.acknowledged.length, .ended (fun _ => .accepted) (request.check s.store)⟩] }
  | .proceed i trouble => do s.advance i (← s.visits[i]?) trouble
  | .giveUp i => do
    let v ← s.visits[i]?
    (v.waitsFor?).map fun lock => s.become i v s.store (.failed (.lockTimeout lock))

def run (moves : List Move) (s : Traffic) : Option Traffic := moves.foldlM step s

/-- What a call comes to, and the store behind it, when nothing else is under way. -/
def alone (s : PageStore) (trouble : Trouble) : Request → Phase × PageStore
  | .read page => (.ended .answered (s.read page).1, (s.read page).2)
  | .fetch page => (.ended .answered (s.fetch page).1, (s.fetch page).2)
  | .write page payload =>
    (.ended (fun _ => .done) (s.write page payload trouble).1, (s.write page payload trouble).2)
  | .flush page => (.ended (fun _ => .done) (s.flush page trouble).1, (s.flush page trouble).2)

theorem alone_refused {s : PageStore} {request : Request} {fault : Fault}
    (refused : request.check s = .error fault) (trouble : Trouble) :
    alone s trouble request = (.failed fault, s) := by
  cases request with
  | read page | fetch page | flush page =>
    have out : s.checkRange page = .error fault := refused
    simp [alone, PageStore.read, PageStore.fetch, PageStore.flush, out, Phase.ended]
  | write page payload =>
    rcases prepared : s.prepare page payload with _ | w
    · have same : fault = _ := Except.error.inj (refused.symm.trans (congrArg (Except.map _) prepared))
      simp [alone, PageStore.write, prepared, Phase.ended, same]
    · cases refused.symm.trans (congrArg (Except.map _) prepared)

/-- The sections of a call, one behind the other, are the call. -/
theorem run_alone (s : PageStore) (trouble : Trouble) (request : Request) : ∃ moves t,
    (start s).run moves = some t ∧ t.visits = [⟨request, 0, (alone s trouble request).1⟩] ∧
      t.store = (alone s trouble request).2 := by
  rcases checked : request.check s with fault | _
  · refine ⟨[.call request], _, rfl, ?_⟩
    simp [start, checked, alone_refused checked, Phase.ended]
  · cases request with
    | read page =>
      have inRange : s.checkRange page = .ok _ := checked
      refine ⟨[.call (.read page), .proceed 0 trouble], ?_⟩
      simp [run, step, advance, enter, start, become, answer, alone, PageStore.read, checked, inRange,
        Phase.ended]
    | fetch page =>
      have inRange : s.checkRange page = .ok _ := checked
      rcases looked : s.lookup page with ⟨_ | bytes, store⟩
      · refine ⟨[.call (.fetch page), .proceed 0 trouble, .proceed 0 trouble], ?_⟩
        simp [run, step, advance, enter, start, become, answer, alone, PageStore.fetch, checked,
          inRange, looked, Phase.ended, Request.page]
      · refine ⟨[.call (.fetch page), .proceed 0 trouble], ?_⟩
        simp [run, step, advance, enter, start, become, alone, PageStore.fetch, checked, inRange,
          looked, Phase.ended]
    | write page payload =>
      obtain ⟨w, prepared, -⟩ := map_eq_ok.mp checked
      rcases replaced : s.replaceFile trouble w.id w.bytes false with ⟨fault | _, store⟩
      · refine ⟨[.call (.write page payload), .proceed 0 trouble], ?_⟩
        simp [run, step, advance, enter, replace, start, become, alone, PageStore.write,
          PageStore.writeLocked, checked, prepared, replaced, Phase.ended, Except.toOption]
      · refine ⟨[.call (.write page payload), .proceed 0 trouble, .proceed 0 trouble,
          .proceed 0 trouble], ?_⟩
        simp [run, step, advance, enter, replace, start, become, alone, PageStore.write,
          PageStore.writeLocked, checked, prepared, replaced, Phase.ended, Except.toOption]
    | flush page =>
      refine ⟨[.call (.flush page), .proceed 0 trouble], ?_⟩
      simp [run, step, advance, enter, start, become, alone, checked, Phase.ended]

/-- Pages whose files were replaced, one behind the other. -/
def rewritten (contents : PageId → Except Fault Bytes) (pages : List Page) :
    PageId → Except Fault Bytes :=
  pages.foldl (fun contents w => Function.update contents w.id (.ok w.bytes)) contents

variable {contents : PageId → Except Fault Bytes} {pages : List Page} {page : PageId} {bytes : Bytes}

theorem rewritten_append (contents : PageId → Except Fault Bytes) (pages : List Page) (w : Page) :
    rewritten contents (pages ++ [w]) =
      Function.update (rewritten contents pages) w.id (.ok w.bytes) := by
  rw [rewritten, List.foldl_append]
  rfl

/-- A page holds the bytes of the last write to it, or else its first ones. -/
theorem last_of_rewritten (read : rewritten contents pages page = .ok bytes) :
    (contents page = .ok bytes ∧ ∀ w ∈ pages, w.id ≠ page) ∨
      ∃ (i : Nat) (w : Page), pages[i]? = some w ∧ w.id = page ∧ w.bytes = bytes ∧
        ∀ (j : Nat) (w' : Page), pages[j]? = some w' → w'.id = page → j ≤ i := by
  induction pages using List.reverseRecOn with
  | nil => exact .inl ⟨read, nofun⟩
  | append_singleton front w ih =>
    rw [rewritten_append] at read
    by_cases same : w.id = page
    · rw [same, Function.update_self] at read
      cases read
      refine .inr ⟨front.length, w, List.getElem?_concat_length .., same, rfl, fun j w' there _ => ?_⟩
      have inside := (List.getElem?_eq_some_iff.mp there).1
      rw [List.length_append] at inside
      exact Nat.le_of_lt_succ inside
    · rw [Function.update_of_ne (Ne.symm same)] at read
      rcases ih read with ⟨first, none⟩ | ⟨i, last, here, id, bytes, latest⟩
      · refine .inl ⟨first, fun w' mem => ?_⟩
        rcases List.mem_append.mp mem with before | now
        · exact none w' before
        · exact List.mem_singleton.mp now ▸ same
      · have inside := (List.getElem?_eq_some_iff.mp here).1
        refine .inr ⟨i, last, by rw [List.getElem?_append_left inside, here], id, bytes,
          fun j w' there other => ?_⟩
        by_cases within : j < front.length
        · rw [List.getElem?_append_left within] at there
          exact latest j w' there other
        · rw [List.getElem?_append_right (Nat.not_lt.mp within)] at there
          have now : w' ∈ [w] := List.mem_of_getElem? there
          rw [List.mem_singleton.mp now] at other
          exact absurd other same

/-- The writes that the cache has seen. -/
def settled (s : Traffic) : List Page := if s.owner.isSome then s.written.dropLast else s.written

/-- What a visit has been told is what the page held after some of the writes, among them all that had
been acknowledged when it was called. -/
def Current (s : Traffic) (contents : PageId → Except Fault Bytes) (v : Visit) (bytes : Bytes) : Prop :=
  ∃ n ≤ s.written.length, (∀ turn ∈ s.acknowledged.take v.since, turn < n) ∧
    rewritten contents (s.written.take n) v.request.page = .ok bytes

/-- What is known of the visit at this place. -/
structure Sound (s : Traffic) (contents : PageId → Except Fault Bytes) (i : Nat) (v : Visit) : Prop where
  since : v.since ≤ s.acknowledged.length
  replaced : ∀ turn page, v.phase = .replaced turn page →
    s.owner = some i ∧ s.written = s.settled ++ [page] ∧ turn = s.settled.length
  released : ∀ turn, v.phase = .released turn → turn < s.settled.length
  answered : ∀ bytes, v.phase = .answered bytes → s.Current contents v bytes

/-- The files hold what was written, and the copies in the cache what it has seen. -/
structure Coherent (h : Handle) (place : Path) (first : PageStore) (s : Traffic) : Prop where
  orderly : s.store.disk.Orderly h s.store.dir place
  pageSize : s.store.pageSize = first.pageSize
  pageCount : s.store.pageCount = first.pageCount
  files : s.store.readFile = rewritten first.readFile s.written
  agrees : s.store.cache.Agrees (rewritten first.readFile s.settled)
  sure : ∀ turn ∈ s.acknowledged, turn < s.settled.length
  asked : ∀ w ∈ s.written, ∃ payload, .write w.id payload ∈ s.visits.map Visit.request ∧
    first.prepare w.id payload = .ok w
  sound : ∀ i v, s.visits[i]? = some v → s.Sound first.readFile i v

variable {h : Handle} {place : Path} {first : PageStore} {s t : Traffic} {i j : Nat} {v : Visit}

theorem settled_free (free : s.owner = none) : s.settled = s.written := by
  rw [settled, free]
  rfl

theorem settled_length_le (s : Traffic) : s.settled.length ≤ s.written.length := by
  unfold settled
  split
  · rw [List.length_dropLast]
    exact Nat.sub_le _ 1
  · exact Nat.le_refl _

theorem Current.later (current : s.Current contents v bytes) (since : v.since ≤ s.acknowledged.length)
    (written : s.written <+: t.written) (acknowledged : s.acknowledged <+: t.acknowledged) :
    t.Current contents v bytes := by
  obtain ⟨n, inside, known, read⟩ := current
  obtain ⟨more, written⟩ := written
  obtain ⟨later, acknowledged⟩ := acknowledged
  refine ⟨n, ?_, ?_, ?_⟩
  · rw [← written, List.length_append]
    exact Nat.le_add_right_of_le inside
  · rw [← acknowledged, List.take_append_of_le_length since]
    exact known
  · rw [← written, List.take_append_of_le_length inside]
    exact read

theorem sound_plain (since : v.since ≤ s.acknowledged.length) (plain : v.phase.plain = true) :
    s.Sound contents i v where
  since := since
  replaced turn page phase := by
    rw [phase] at plain
    cases plain
  released turn phase := by
    rw [phase] at plain
    cases plain
  answered bytes phase := by
    rw [phase] at plain
    cases plain

theorem sound_replaced (since : v.since ≤ s.acknowledged.length) {turn : Nat} {page : Page}
    (phase : v.phase = .replaced turn page) (owner : s.owner = some i)
    (written : s.written = s.settled ++ [page]) (latest : turn = s.settled.length) :
    s.Sound contents i v where
  since := since
  replaced turn page same := by
    cases phase.symm.trans same
    exact ⟨owner, written, latest⟩
  released turn same := nomatch phase.symm.trans same
  answered bytes same := nomatch phase.symm.trans same

/-- A visit is as sound as before after a section of another one. -/
theorem Sound.later (sound : s.Sound contents j v) (written : s.written <+: t.written)
    (acknowledged : s.acknowledged <+: t.acknowledged) (settled : s.settled.length ≤ t.settled.length)
    (held : s.owner = some j → t.owner = s.owner ∧ t.written = s.written) : t.Sound contents j v where
  since := Nat.le_trans sound.since acknowledged.length_le
  replaced turn page phase := by
    obtain ⟨owner, last, here⟩ := sound.replaced turn page phase
    obtain ⟨same, pages⟩ := held owner
    have settled : t.settled = s.settled := by rw [Traffic.settled, Traffic.settled, same, pages]
    rw [same, pages, settled]
    exact ⟨owner, last, here⟩
  released turn phase := Nat.lt_of_lt_of_le (sound.released turn phase) settled
  answered bytes phase := (sound.answered bytes phase).later sound.since written acknowledged

theorem Sound.same (sound : s.Sound contents j v) (owner : t.owner = s.owner)
    (written : t.written = s.written) (acknowledged : t.acknowledged = s.acknowledged) :
    t.Sound contents j v := by
  refine sound.later (written ▸ List.prefix_rfl) (acknowledged ▸ List.prefix_rfl) ?_
    fun _ => ⟨owner, written⟩
  rw [settled, settled, owner, written]

theorem Coherent.current (coherent : Coherent h place first s)
    (known : rewritten first.readFile s.settled v.request.page = .ok bytes) :
    s.Current first.readFile v bytes := by
  have front : s.written.take s.settled.length = s.settled := by
    unfold settled
    split
    · rw [List.length_dropLast, List.dropLast_eq_take]
    · exact List.take_length
  refine ⟨s.settled.length, s.settled_length_le, fun turn mem => ?_, front.symm ▸ known⟩
  exact coherent.sure turn (List.mem_of_mem_take mem)

theorem coherent_start (orderly : first.disk.Orderly h first.dir place)
    (agrees : first.cache.Agrees first.readFile) : Coherent h place first (start first) where
  orderly := orderly
  pageSize := rfl
  pageCount := rfl
  files := rfl
  agrees := agrees
  sure := nofun
  asked := nofun
  sound := nofun

/-- With the lock free the store is a table of its files. -/
theorem Coherent.shows (coherent : Coherent h place first s) (free : s.owner = none) :
    s.store.Shows h place (s.store.table place) := by
  have agrees := coherent.agrees
  rw [settled_free free, ← coherent.files] at agrees
  exact PageStore.shows_table coherent.orderly agrees

theorem visit_set {w w' : Visit} (there : (s.visits.set i w)[j]? = some w') :
    (j = i ∧ w' = w) ∨ (j ≠ i ∧ s.visits[j]? = some w') := by
  rw [List.getElem?_set] at there
  split at there
  · next same =>
    split at there
    · exact .inl ⟨same.symm, (Option.some.inj there).symm⟩
    · cases there
  · next other => exact .inr ⟨Ne.symm other, there⟩

theorem requests_set (here : s.visits[i]? = some v) (phase : Phase) :
    (s.visits.set i { v with phase }).map Visit.request = s.visits.map Visit.request := by
  obtain ⟨inside, rfl⟩ := List.getElem?_eq_some_iff.mp here
  have within : i < (s.visits.map Visit.request).length := by rwa [List.length_map]
  have same : (s.visits.map Visit.request)[i] = s.visits[i].request := List.getElem_map _
  rw [List.map_set, ← same, List.set_getElem_self]

theorem Coherent.asked_set (coherent : Coherent h place first s) (here : s.visits[i]? = some v)
    (phase : Phase) {w : Page} (mem : w ∈ s.written) : ∃ payload,
      .write w.id payload ∈ (s.visits.set i { v with phase }).map Visit.request ∧
        first.prepare w.id payload = .ok w := by
  rw [requests_set here]
  exact coherent.asked w mem

/-- A section that changes no file. -/
theorem Coherent.become (coherent : Coherent h place first s) (here : s.visits[i]? = some v)
    {store : PageStore} {phase : Phase} (orderly : store.disk.Orderly h store.dir place)
    (table : store.table place = { s.store.table place with dirty := store.dirty })
    (agrees : store.cache.Agrees (rewritten first.readFile s.settled))
    (sound : s.Sound first.readFile i { v with phase }) :
    Coherent h place first (s.become i v store phase) where
  orderly := orderly
  pageSize := (congrArg Table.pageSize table).trans coherent.pageSize
  pageCount := (congrArg Table.pageCount table).trans coherent.pageCount
  files := (congrArg Table.contents table).trans coherent.files
  agrees := agrees
  sure := coherent.sure
  asked w mem := coherent.asked_set here phase mem
  sound j w there := by
    rcases visit_set there with ⟨rfl, rfl⟩ | ⟨-, before⟩
    · exact sound.same rfl rfl rfl
    · exact (coherent.sound j w before).same rfl rfl rfl

/-- What a shared section leaves behind, whatever it answers. -/
theorem Coherent.answer (coherent : Coherent h place first s) (here : s.visits[i]? = some v)
    (free : s.owner = none) {result : Except Fault Bytes × PageStore}
    (answer : result.1 = s.store.readFile v.request.page)
    (shows : result.2.Shows h place (s.store.table place)) :
    Coherent h place first (s.answer i v result) := by
  have since := (coherent.sound i v here).since
  have agrees := shows.agrees
  change result.2.cache.Agrees s.store.readFile at agrees
  rw [coherent.files, ← settled_free free] at agrees
  have table : result.2.table place = { s.store.table place with dirty := result.2.dirty } := by
    rw [← shows.table]
    rfl
  refine coherent.become here shows.orderly table agrees ?_
  rw [answer]
  rcases read : s.store.readFile v.request.page with fault | bytes
  · exact sound_plain since rfl
  · refine ⟨since, nofun, nofun, fun _ same => ?_⟩
    cases same
    rw [coherent.files, ← settled_free free] at read
    exact coherent.current read

theorem Coherent.release (coherent : Coherent h place first s) (here : s.visits[i]? = some v)
    {turn : Nat} {page : Page} (phase : v.phase = .replaced turn page) :
    Coherent h place first { s.become i v
      ((s.store.markDirty page.id).refreshCache page.id page.bytes) (.released turn) with
        owner := none } := by
  have known := coherent.sound i v here
  obtain ⟨owner, written, last⟩ := known.replaced turn page phase
  have less : s.settled.length < s.written.length := by
    rw [written, List.length_append]
    exact Nat.lt_add_one _
  refine ⟨coherent.orderly, coherent.pageSize, coherent.pageCount, coherent.files, ?_,
    fun turn mem => Nat.lt_trans (coherent.sure turn mem) less,
    fun w mem => coherent.asked_set here _ mem, fun j w there => ?_⟩
  · have agrees := coherent.agrees.afterWrite page.id page.bytes
    rw [← rewritten_append, ← written] at agrees
    exact agrees
  · rcases visit_set there with ⟨-, rfl⟩ | ⟨other, before⟩
    · refine ⟨known.since, nofun, fun _ same => ?_, nofun⟩
      cases same
      exact last ▸ less
    · refine (coherent.sound j w before).later List.prefix_rfl List.prefix_rfl less.le fun mine => ?_
      exact absurd (Option.some.inj (mine.symm.trans owner)) other

theorem Coherent.acknowledge (coherent : Coherent h place first s) (here : s.visits[i]? = some v)
    {turn : Nat} (phase : v.phase = .released turn) :
    Coherent h place first { s.become i v (s.store.count .writes) .done with
      acknowledged := s.acknowledged ++ [turn] } := by
  have known := coherent.sound i v here
  have more : s.acknowledged <+: s.acknowledged ++ [turn] := List.prefix_append _ _
  refine ⟨coherent.orderly, coherent.pageSize, coherent.pageCount, coherent.files, coherent.agrees,
    fun other mem => ?_, fun w mem => coherent.asked_set here _ mem, fun j w there => ?_⟩
  · rcases List.mem_append.mp mem with before | now
    · exact coherent.sure other before
    · exact List.mem_singleton.mp now ▸ known.released turn phase
  · rcases visit_set there with ⟨-, rfl⟩ | ⟨-, before⟩
    · exact sound_plain (Nat.le_trans known.since more.length_le) rfl
    · exact (coherent.sound j w before).later List.prefix_rfl more (Nat.le_refl _)
        fun _ => ⟨rfl, rfl⟩

/-- The file is replaced, or it is as before and the write has failed. -/
theorem Coherent.replace (coherent : Coherent h place first s) (here : s.visits[i]? = some v)
    (free : s.owner = none) {payload : Bytes} (request : v.request = .write page payload) {w : Page}
    (prepared : s.store.prepare page payload = .ok w) (trouble : Trouble) :
    Coherent h place first (s.replace i v trouble w) := by
  obtain ⟨rfl, size⟩ := PageStore.length_of_prepare prepared
  have known := coherent.sound i v here
  have settled := settled_free free
  obtain ⟨disk, replaced, orderly, table⟩ :=
    (coherent.shows free).replaceFile trouble w.id size false
  have calls : Volume.installCalls w.bytes false ++ Volume.settleCalls false =
      Volume.installCalls w.bytes false := List.append_nil _
  rw [calls] at replaced
  unfold Traffic.replace
  rw [replaced]
  rcases refused : Volume.refusal trouble
    (Volume.inTheWay (s.store.table place).blocked w.id) (Volume.installCalls w.bytes false) with _ | cause
  all_goals rw [refused] at table
  · have files : ({ s.store with disk } : PageStore).readFile =
        rewritten first.readFile (s.written ++ [w]) := by
      rw [rewritten_append, ← coherent.files]
      exact congrArg Table.contents table
    have seen : ∀ u : Traffic, u.owner = some i → u.written = s.written ++ [w] →
        u.settled = s.written := by
      intro u owner written
      rw [Traffic.settled, owner, written]
      exact List.dropLast_concat
    refine ⟨orderly, coherent.pageSize, coherent.pageCount, files, ?_, ?_, fun w' mem => ?_,
      fun j x there => ?_⟩
    · rw [seen _ rfl rfl, ← settled]
      exact coherent.agrees
    · rw [seen _ rfl rfl, ← settled]
      exact coherent.sure
    · rcases List.mem_append.mp mem with before | now
      · exact coherent.asked_set here _ before
      · cases List.mem_singleton.mp now
        have asked : .write w.id payload ∈ s.visits.map Visit.request :=
          request ▸ List.mem_map_of_mem (List.mem_of_getElem? here)
        rw [← requests_set here (.replaced s.written.length w)] at asked
        refine ⟨payload, asked, ?_⟩
        rw [← prepared, PageStore.prepare, PageStore.prepare, PageStore.checkRange,
          PageStore.checkRange, coherent.pageSize, coherent.pageCount]
    · rcases visit_set there with ⟨rfl, rfl⟩ | ⟨-, before⟩
      · refine sound_replaced known.since rfl rfl ?_ ?_
        · rw [seen _ rfl rfl]
          rfl
        · rw [seen _ rfl rfl]
      · refine (coherent.sound j x before).later (List.prefix_append _ _) List.prefix_rfl ?_
          fun mine => ?_
        · rw [settled, seen _ rfl rfl]
        · rw [free] at mine
          cases mine
  · exact coherent.become here orderly table coherent.agrees (sound_plain known.since rfl)

theorem Coherent.enter (coherent : Coherent h place first s) (here : s.visits[i]? = some v)
    {trouble : Trouble} (done : s.enter i v trouble = some t) : Coherent h place first t := by
  have known := coherent.sound i v here
  unfold Traffic.enter at done
  rcases request : v.request with page | page | ⟨page, payload⟩ | page
  all_goals simp only [request] at done
  case read =>
    split at done
    · cases done
    · next busy =>
      cases done
      have free := Option.not_isSome_iff_eq_none.mp busy
      have read := (coherent.shows free).readCounted page
      exact coherent.answer here free (request ▸ read.1) read.2
  case fetch =>
    obtain ⟨counters, looked⟩ := PageStore.lookup_eq s.store page
    have agrees := coherent.agrees.lookup page
    rw [looked] at done
    rcases hit : (s.store.cache.lookup page).1 with _ | bytes
    all_goals
      rw [hit] at done
      cases done
    · exact coherent.become here coherent.orderly rfl agrees (sound_plain known.since rfl)
    · refine coherent.become here coherent.orderly rfl agrees ⟨known.since, nofun, nofun, ?_⟩
      rintro _ same
      cases same
      exact coherent.current (request ▸ coherent.agrees.found hit)
  case write =>
    split at done
    · cases done
    · next busy =>
      rcases prepared : s.store.prepare page payload with _ | w
      all_goals
        rw [prepared] at done
        cases done
      exact coherent.replace here (Option.not_isSome_iff_eq_none.mp busy) request prepared trouble
  case flush =>
    split at done
    · cases done
    · next busy =>
      cases done
      have free := Option.not_isSome_iff_eq_none.mp busy
      have flushed := ((coherent.shows free).flush page fun _ => trouble).2
      have agrees : (s.store.flush page trouble).2.cache.Agrees s.store.readFile := flushed.agrees
      rw [coherent.files, ← settled_free free] at agrees
      refine coherent.become here flushed.orderly ?_ agrees ?_
      · have dirty : (s.store.flush page trouble).2.dirty = _ := congrArg Table.dirty flushed.table
        rw [dirty]
        exact flushed.table
      · rcases (s.store.flush page trouble).1 with fault | _
        all_goals exact sound_plain known.since rfl

theorem Coherent.advance (coherent : Coherent h place first s) (here : s.visits[i]? = some v)
    {trouble : Trouble} (done : s.advance i v trouble = some t) : Coherent h place first t := by
  unfold Traffic.advance at done
  rcases phase : v.phase with _ | _ | ⟨turn, page⟩ | turn | _ | _ | _
  all_goals simp only [phase] at done
  case accepted => exact coherent.enter here done
  case missed =>
    split at done
    · cases done
    · next busy =>
      cases done
      have free := Option.not_isSome_iff_eq_none.mp busy
      have fetched := (coherent.shows free).fetchMissed v.request.page
      exact coherent.answer here free fetched.1 fetched.2
  case replaced =>
    cases done
    exact coherent.release here phase
  case released =>
    cases done
    exact coherent.acknowledge here phase
  all_goals cases done

theorem Coherent.call (coherent : Coherent h place first s) (request : Request) (phase : Except Fault Unit) :
    Coherent h place first { s with visits := s.visits ++
      [⟨request, s.acknowledged.length, .ended (fun _ => .accepted) phase⟩] } := by
  refine ⟨coherent.orderly, coherent.pageSize, coherent.pageCount, coherent.files, coherent.agrees,
    coherent.sure, fun w mem => ?_, fun j w there => ?_⟩
  · obtain ⟨payload, asked, prepared⟩ := coherent.asked w mem
    rw [List.map_append]
    exact ⟨payload, List.mem_append_left _ asked, prepared⟩
  · rcases Nat.lt_or_ge j s.visits.length with before | now
    · rw [List.getElem?_append_left before] at there
      exact (coherent.sound j w there).same rfl rfl rfl
    · rw [List.getElem?_append_right now] at there
      cases List.mem_singleton.mp (List.mem_of_getElem? there)
      cases phase with
      | error | ok => exact sound_plain (Nat.le_refl _) rfl

theorem Coherent.step (coherent : Coherent h place first s) {move : Move}
    (done : s.step move = some t) : Coherent h place first t := by
  cases move with
  | call request =>
    cases done
    exact coherent.call request _
  | proceed i trouble =>
    obtain ⟨v, here, done⟩ := Option.bind_eq_some_iff.mp done
    exact coherent.advance here done
  | giveUp i =>
    obtain ⟨v, here, done⟩ := Option.bind_eq_some_iff.mp done
    obtain ⟨lock, -, rfl⟩ := Option.map_eq_some_iff.mp done
    exact coherent.become here coherent.orderly rfl coherent.agrees
      (sound_plain (coherent.sound i v here).since rfl)

theorem Coherent.run (coherent : Coherent h place first s) {moves : List Move}
    (done : s.run moves = some t) : Coherent h place first t := by
  induction moves generalizing s with
  | nil =>
    cases done
    exact coherent
  | cons move rest ih =>
    rw [Traffic.run, List.foldlM_cons] at done
    obtain ⟨next, now, later⟩ := Option.bind_eq_some_iff.mp done
    exact ih (coherent.step now) later

/-- Whatever runs between the sections of a read or a fetch, it gives the bytes of one single write, or
the initial ones, and no write to that page that had returned before the call is a later one. While no
write is between its two steps, every cached copy is what the page's file holds. -/
theorem reads_are_current {moves : List Move} (orderly : first.disk.Orderly h first.dir place)
    (agrees : first.cache.Agrees first.readFile) (done : (start first).run moves = some s) :
    (s.owner = none → ∀ e ∈ s.store.cache.entries, s.store.readFile e.page = .ok e.bytes) ∧
    (∀ v ∈ s.visits, ∀ bytes, v.phase = .answered bytes →
      let returned (w : Page) (turn : Nat) : Prop :=
        turn ∈ s.acknowledged.take v.since ∧ s.written[turn]? = some w ∧ w.id = v.request.page
      (first.readFile v.request.page = .ok bytes ∧ ∀ w turn, ¬returned w turn) ∨
      ∃ (turn : Nat) (w : Page), s.written[turn]? = some w ∧ w.id = v.request.page ∧ w.bytes = bytes ∧
        ∀ w' turn', returned w' turn' → turn' ≤ turn) ∧
    ∀ w ∈ s.written, ∃ payload, .write w.id payload ∈ s.visits.map Visit.request ∧
      first.prepare w.id payload = .ok w := by
  have coherent := (coherent_start orderly agrees).run done
  refine ⟨fun free => (coherent.shows free).agrees, fun v mem bytes phase => ?_, coherent.asked⟩
  intro returned
  obtain ⟨i, here⟩ := List.mem_iff_getElem?.mp mem
  obtain ⟨n, inside, known, read⟩ := (coherent.sound i v here).answered bytes phase
  -- what had returned is among the first `n` writes
  have early : ∀ w turn, returned w turn → (s.written.take n)[turn]? = some w := by
    rintro w turn ⟨back, there, -⟩
    rw [List.getElem?_take_of_lt (known turn back), there]
  rcases last_of_rewritten read with ⟨initial, none⟩ | ⟨turn, w, there, id, same, latest⟩
  · refine .inl ⟨initial, fun w turn back => ?_⟩
    exact none w (List.mem_of_getElem? (early w turn back)) back.2.2
  · have there : s.written[turn]? = some w := by
      have within := (List.getElem?_eq_some_iff.mp there).1
      rw [List.length_take] at within
      rwa [List.getElem?_take_of_lt (by omega)] at there
    exact .inr ⟨turn, w, there, id, same, fun w' turn' back =>
      latest turn' w' (early w' turn' back) back.2.2⟩

/-- A fetch misses, then the page is written twice before it reads the file; another one finds the first
of these writes in the cache while the second is between its two steps. -/
theorem reads_are_current_twice_written :
    let moves : List Move := [.call (.fetch 1), .proceed 0 .none, .call (.write 1 [7]),
      .proceed 1 .none, .proceed 1 .none, .proceed 1 .none, .call (.write 1 [8]), .proceed 2 .none,
      .call (.fetch 1), .proceed 3 .none, .proceed 2 .none, .proceed 2 .none, .proceed 0 .none]
    ∃ s, (start Checkpoint.Checkpointer.twoPages.store).run moves = some s ∧
      s.visits.map Visit.phase =
        [.answered [8, 0, 0, 0], .done, .done, .answered [7, 0, 0, 0]] ∧
      ∀ e ∈ s.store.cache.entries, s.store.readFile e.page = .ok e.bytes := by
  intro moves
  have computed : ((start Checkpoint.Checkpointer.twoPages.store).run moves).map (fun s =>
      (s.owner, s.visits.map Visit.phase)) = some (none,
        [.answered [8, 0, 0, 0], .done, .done, .answered [7, 0, 0, 0]]) := by decide +kernel
  obtain ⟨s, done, known⟩ := Option.map_eq_some_iff.mp computed
  simp only [Prod.mk.injEq] at known
  have agrees : Checkpoint.Checkpointer.twoPages.store.cache.Agrees
      Checkpoint.Checkpointer.twoPages.store.readFile := Cache.agrees_create 1 .evictOldest _
  have current := reads_are_current Checkpoint.Checkpointer.orderly_twoPages agrees done
  exact ⟨s, done, known.2, current.1 known.1⟩

end Traffic

end PageJournal
