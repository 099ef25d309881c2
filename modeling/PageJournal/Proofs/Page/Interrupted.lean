import PageJournal.Proofs.Page.Coherence

/-! What a write or a flush of a page can leave behind. Any of its calls on files may fail, a failed append
may have put down a part of its bytes, and the process may die between two calls or in an append. The
page's file holds its old bytes or the new ones then, and no other page's file has changed. -/
namespace PageJournal

/-- How a row of calls ends. -/
inductive Ending where
  | done
  | refused (cause : IoFault)
  /-- The process has died. -/
  | dead

namespace Ending

def ofOutcome : Except IoFault Unit → Ending
  | .ok _ => .done
  | .error cause => .refused cause

/-- The end of a row of calls that is made because another call was refused. -/
def despite (cause : IoFault) : Ending → Ending
  | .dead => .dead
  | .done | .refused _ => .refused cause

/-- What the caller is told, if it still runs. -/
def answer : Ending → Option (Except Fault Unit)
  | .done => some (.ok ())
  | .refused cause => some (.error (.io cause))
  | .dead => none

end Ending

namespace Volume

/-- Calls of a replacement, one behind the other, from one volume to another. -/
inductive Carries (file : Path) (bytes : Bytes) : List FileStep → Volume → Ending → Volume → Prop where
  | done (v : Volume) : Carries file bytes [] v .done v
  | next {call : FileCall} {act : Volume → Except IoFault Volume} {rest : List FileStep}
    {v u w : Volume} {e : Ending} (acted : act v = .ok u) (later : Carries file bytes rest u e w) :
    Carries file bytes ((call, act) :: rest) v e w
  | refused (step : FileStep) (rest : List FileStep) (v : Volume) (cause : IoFault) :
    Carries file bytes (step :: rest) v (.refused cause) v
  | dies (steps : List FileStep) (v : Volume) : Carries file bytes steps v .dead v
  /-- An append ends behind a part of its bytes. -/
  | torn {index : Nat} {chunk part : Bytes} {act : Volume → Except IoFault Volume}
    {rest : List FileStep} {v u : Volume} {e : Ending}
    (whole : (chunks chunkSize bytes)[index]? = some chunk) (front : part <+: chunk)
    (acted : appendAt (temporaryPath file) part v = .ok u) (stopped : e ≠ .done) :
    Carries file bytes ((.append index, act) :: rest) v e u

/-- A replacement: after the rename the directory is made durable; if a call up to there is refused what
has gathered is discarded. -/
inductive Replaces (file : Path) (bytes : Bytes) (durable : Bool) (v : Volume) : Ending → Volume → Prop where
  | installed {u w : Volume} {e : Ending}
    (install : Carries file bytes (installSteps file bytes durable) v .done u)
    (settle : Carries file bytes (settleSteps file durable) u e w) : Replaces file bytes durable v e w
  | died {w : Volume} (install : Carries file bytes (installSteps file bytes durable) v .dead w) :
    Replaces file bytes durable v .dead w
  | discarded {u w : Volume} {cause : IoFault} {e : Ending}
    (install : Carries file bytes (installSteps file bytes durable) v (.refused cause) u)
    (discard : Carries file bytes (discardSteps file) u e w) :
    Replaces file bytes durable v (e.despite cause) w

variable {file : Path} {bytes : Bytes} {durable : Bool} {v w : Volume} {e : Ending}

theorem carries_perform (file : Path) (bytes : Bytes) (t : Trouble) (steps : List FileStep) (v : Volume) :
    Carries file bytes steps v (.ofOutcome (v.perform t steps).1) (v.perform t steps).2 := by
  induction steps generalizing v with
  | nil => exact .done v
  | cons step rest ih =>
    obtain ⟨call, act⟩ := step
    unfold perform
    split
    · exact .refused _ rest v _
    · split
      · exact .refused _ rest v _
      · next u acted => exact .next acted (ih u)

/-- However calls are refused, a replacement is one. -/
theorem replaces_replace (t : Trouble) (file : Path) (bytes : Bytes) (durable : Bool) (v : Volume) :
    Replaces file bytes durable v (.ofOutcome (v.replace t file bytes durable).1)
      (v.replace t file bytes durable).2 := by
  have install := carries_perform file bytes t (installSteps file bytes durable) v
  unfold Volume.replace
  rcases installed : v.perform t (installSteps file bytes durable) with ⟨cause | _, u⟩
  all_goals rw [installed] at install
  · have discard := carries_perform file bytes t (discardSteps file) u
    dsimp only
    rcases discarded : u.perform t (discardSteps file) with ⟨_ | _, w⟩
    all_goals
      rw [discarded] at discard
      exact .discarded install discard
  · exact .installed install (carries_perform file bytes t _ u)

theorem carries_nil (carried : Carries file bytes [] v e w) : w = v ∧ ∀ cause, e ≠ .refused cause := by
  cases carried with
  | done | dies => exact ⟨rfl, nofun⟩

theorem carries_cons {call : FileCall} {act : Volume → Except IoFault Volume} {rest : List FileStep}
    (carried : Carries file bytes ((call, act) :: rest) v e w) :
    (∃ u, act v = .ok u ∧ Carries file bytes rest u e w) ∨ e ≠ .done ∧ (w = v ∨
      ∃ index part, call = .append index ∧ appendAt (temporaryPath file) part v = .ok w) := by
  cases carried with
  | next acted later => exact .inl ⟨_, acted, later⟩
  | refused | dies => exact .inr ⟨nofun, .inl rfl⟩
  | torn whole front acted stopped => exact .inr ⟨stopped, .inr ⟨_, _, rfl, acted⟩⟩

theorem carries_append {a b : List FileStep} (carried : Carries file bytes (a ++ b) v e w) :
    e ≠ .done ∧ Carries file bytes a v e w ∨
      ∃ u, Carries file bytes a v .done u ∧ Carries file bytes b u e w := by
  induction a generalizing v with
  | nil => exact .inr ⟨v, .done v, carried⟩
  | cons step rest ih =>
    rw [List.cons_append] at carried
    cases carried with
    | next acted later =>
      rcases ih later with ⟨stopped, front⟩ | ⟨u, front, behind⟩
      · exact .inl ⟨stopped, .next acted front⟩
      · exact .inr ⟨u, .next acted front, behind⟩
    | refused => exact .inl ⟨nofun, .refused _ _ _ _⟩
    | dies => exact .inl ⟨nofun, .dies _ _⟩
    | torn whole front acted stopped => exact .inl ⟨stopped, .torn whole front acted stopped⟩

variable {h : Handle} {dir place : Path} {p : PageId} {written : Bytes}

/-- The new bytes gather while they are appended, up to a part of a piece. -/
theorem Gathers.carries (call : Nat → FileCall) (pieces : List Bytes)
    (gathers : Gathers h dir place p v written w) {after : Volume}
    (carried : Carries (PageStore.fileIn dir p) bytes (pieces.mapIdx fun index piece =>
      (call index, appendAt (dir.child (Slot.gathering p).name) piece)) w e after) :
    ∃ gathered, Gathers h dir place p v gathered after ∧
      (e = .done → gathered = written ++ pieces.flatten) := by
  induction pieces generalizing call written w with
  | nil =>
    obtain ⟨rfl, -⟩ := carries_nil carried
    exact ⟨written, gathers, fun _ => by simp⟩
  | cons piece rest ih =>
    rw [List.mapIdx_cons] at carried
    rcases carries_cons carried with ⟨u, acted, later⟩ | ⟨stopped, rfl | ⟨_, part, -, acted⟩⟩
    · obtain ⟨next, appended, grown⟩ := gathers.append piece
      cases appended.symm.trans acted
      obtain ⟨gathered, last, whole⟩ := ih (fun n => call (n + 1)) grown later
      refine ⟨gathered, last, fun done => ?_⟩
      rw [whole done, List.flatten_cons, List.append_assoc]
    · exact ⟨written, gathers, fun done => absurd done stopped⟩
    · obtain ⟨next, appended, grown⟩ := gathers.append part
      rw [show temporaryPath (PageStore.fileIn dir p) = dir.child (Slot.gathering p).name from
        temporaryPath_child dir _] at acted
      cases appended.symm.trans acted
      exact ⟨_, grown, fun done => absurd done stopped⟩

theorem Gathers.carries_gather (gathers : Gathers h dir place p v [] w) {after : Volume}
    (carried : Carries (PageStore.fileIn dir p) bytes (gatherSteps dir p bytes durable) w e after) :
    ∃ gathered, Gathers h dir place p v gathered after ∧ (e = .done → gathered = bytes) := by
  rcases carries_append carried with ⟨stopped, front⟩ | ⟨u, appended, sync⟩
  · obtain ⟨gathered, last, -⟩ := gathers.carries .append _ front
    exact ⟨gathered, last, fun done => absurd done stopped⟩
  · obtain ⟨gathered, last, whole⟩ := gathers.carries .append _ appended
    rw [flatten_chunks (by decide), List.nil_append] at whole
    have same : after = u := by
      split at sync
      · rcases carries_cons sync with ⟨x, acted, later⟩ | ⟨-, rfl | ⟨_, _, call, -⟩⟩
        · cases last.sync.symm.trans acted
          exact (carries_nil later).1
        · rfl
        · cases call
      · exact (carries_nil sync).1
    exact ⟨gathered, same ▸ last, fun _ => whole rfl⟩

/-- Up to the rename the page's file is untouched, and then it holds the new bytes. -/
theorem Orderly.carries_install (orderly : Orderly h dir place v)
    (carried : Carries (PageStore.fileIn dir p) bytes
      (installSteps (PageStore.fileIn dir p) bytes durable) v e w) :
    Kept h dir place p v w ∧ e ≠ .done ∨
      Installed h dir place p v bytes w ∧ ∀ cause, e ≠ .refused cause := by
  rw [installSteps_page, List.append_assoc, List.singleton_append] at carried
  rcases carries_cons carried with ⟨u, created, later⟩ | ⟨stopped, rfl | ⟨_, _, call, -⟩⟩
  · by_cases blocked : v.slot? place (.gathering p) = some .directory
    · rw [orderly.create_refused blocked] at created
      cases created
    · obtain ⟨opened, succeeded, gathers⟩ := orderly.create p blocked
      rw [succeeded] at created
      cases created
      rcases carries_append later with ⟨stopped, gathering⟩ | ⟨x, gathering, rename⟩
      · obtain ⟨gathered, last, -⟩ := gathers.carries_gather gathering
        exact .inl ⟨last.kept, stopped⟩
      · -- All calls but the rename went through, so that the whole of the bytes has gathered.
        obtain ⟨gathered, last, whole⟩ := gathers.carries_gather gathering
        obtain rfl := whole rfl
        rcases carries_cons rename with ⟨y, renamed, ended⟩ | ⟨stopped, rfl | ⟨_, _, call, -⟩⟩
        · obtain ⟨rfl, clear⟩ := carries_nil ended
          rcases last.rename with ⟨refused, -⟩ | ⟨-, after, succeeded, installed⟩
          · cases refused.symm.trans renamed
          · cases succeeded.symm.trans renamed
            exact .inr ⟨installed, clear⟩
        · exact .inl ⟨last.kept, stopped⟩
        · cases call
  · exact .inl ⟨.refl orderly p, stopped⟩
  · cases call

theorem carries_settle (carried : Carries file bytes (settleSteps file durable) v e w) :
    w = v ∧ (durable = false → ∀ cause, e ≠ .refused cause) := by
  cases durable with
  | false => exact ⟨(carries_nil carried).1, fun _ => (carries_nil carried).2⟩
  | true =>
    rcases carries_cons carried with ⟨u, acted, later⟩ | ⟨-, rfl | ⟨_, _, call, -⟩⟩
    · obtain ⟨_, -, rfl⟩ := map_eq_ok.mp acted
      exact ⟨(carries_nil later).1, nofun⟩
    · exact ⟨rfl, nofun⟩
    · cases call

theorem Orderly.carries_discard (orderly : Orderly h dir place v)
    (carried : Carries (PageStore.fileIn dir p) bytes (discardSteps (PageStore.fileIn dir p)) v e w) :
    Kept h dir place p v w := by
  have temporary : temporaryPath (PageStore.fileIn dir p) = dir.child (Slot.gathering p).name :=
    temporaryPath_child dir _
  unfold discardSteps at carried
  rw [temporary] at carried
  rcases carries_cons carried with ⟨u, removed, later⟩ | ⟨-, rfl | ⟨_, _, call, -⟩⟩
  · obtain ⟨rfl, -⟩ := carries_nil later
    exact orderly.remove removed
  · exact .refl orderly p
  · cases call

/-- A replacement keeps the page's file or takes effect as a whole, and it is not refused behind the rename
unless the directory is to be made durable. -/
theorem Orderly.replaces (orderly : Orderly h dir place v)
    (replaced : Replaces (PageStore.fileIn dir p) bytes durable v e w) :
    Kept h dir place p v w ∧ e ≠ .done ∨ Installed h dir place p v bytes w ∧
      (durable = false → ∀ cause, e ≠ .refused cause) := by
  cases replaced with
  | installed install settle =>
    rcases orderly.carries_install install with ⟨-, wrong⟩ | ⟨installed, -⟩
    · exact absurd rfl wrong
    · obtain ⟨rfl, clear⟩ := carries_settle settle
      exact .inr ⟨installed, clear⟩
  | died install =>
    rcases orderly.carries_install install with ⟨kept, -⟩ | ⟨installed, -⟩
    · exact .inl ⟨kept, nofun⟩
    · exact .inr ⟨installed, fun _ _ => nofun⟩
  | @discarded _ _ cause e install discard =>
    -- What is refused was refused before the rename took effect.
    rcases orderly.carries_install install with ⟨kept, -⟩ | ⟨-, clear⟩
    · refine .inl ⟨kept.trans (kept.orderly.carries_discard discard), ?_⟩
      cases e <;> nofun
    · exact absurd rfl (clear cause)

end Volume

/-- A call that replaces the file of a page. -/
inductive Rewrite where
  | write (page : PageId) (payload : Bytes)
  | flush (page : PageId)

namespace Rewrite

def page : Rewrite → PageId
  | write page _ | flush page => page

def durable : Rewrite → Bool
  | write _ _ => false
  | flush _ => true

/-- The bytes that the file is replaced by. -/
def bytes (s : PageStore) : Rewrite → Except Fault Bytes
  | write page payload => (s.prepare page payload).map (·.bytes)
  | flush page => do
    s.checkRange page
    s.readFile page

def run (t : Trouble) (s : PageStore) : Rewrite → Except Fault Unit × PageStore
  | write page payload => s.write page payload t
  | flush page => ((s.flush page t).1.map fun _ => (), (s.flush page t).2)

end Rewrite

namespace PageStore

/-- What the caller is told, if it still runs, and what the call leaves behind. -/
inductive Rewrites (s : PageStore) (r : Rewrite) : Option (Except Fault Unit) → Volume → Prop where
  | refused {fault : Fault} (wrong : r.bytes s = .error fault) : s.Rewrites r (some (.error fault)) s.disk
  | replaced {bytes : Bytes} {e : Ending} {v : Volume} (right : r.bytes s = .ok bytes)
    (replaces : Volume.Replaces (s.file r.page) bytes r.durable s.disk e v) : s.Rewrites r e.answer v

theorem rewrites_replaceFile {s : PageStore} {r : Rewrite} {bytes : Bytes} (right : r.bytes s = .ok bytes)
    (t : Trouble) : s.Rewrites r (some (s.replaceFile t r.page bytes r.durable).1)
      (s.replaceFile t r.page bytes r.durable).2.disk := by
  have replaces := Volume.replaces_replace t (s.file r.page) bytes r.durable s.disk
  rw [replaceFile_eq]
  rcases replaced : s.disk.replace t (s.file r.page) bytes r.durable with ⟨_ | _, v⟩
  all_goals
    rw [replaced] at replaces
    exact .replaced right replaces

theorem rewrites_write (s : PageStore) (page : PageId) (payload : Bytes) (t : Trouble) :
    s.Rewrites (.write page payload) (some (s.write page payload t).1)
      (s.write page payload t).2.disk := by
  unfold write writeLocked
  rcases prepared : s.prepare page payload with fault | w
  · have wrong : Rewrite.bytes s (.write page payload) = .error fault := by
      rw [Rewrite.bytes, prepared]
      rfl
    exact .refused wrong
  · obtain ⟨rfl, -⟩ := length_of_prepare prepared
    have right : Rewrite.bytes s (.write w.id payload) = .ok w.bytes := by
      rw [Rewrite.bytes, prepared]
      rfl
    have rewrites : s.Rewrites (.write w.id payload) (some (s.replaceFile t w.id w.bytes false).1)
      (s.replaceFile t w.id w.bytes false).2.disk := rewrites_replaceFile right t
    dsimp only
    rcases replaced : s.replaceFile t w.id w.bytes false with ⟨_ | _, after⟩
    all_goals
      rw [replaced] at rewrites
      exact rewrites

theorem rewrites_flush (s : PageStore) (page : PageId) (t : Trouble) :
    s.Rewrites (.flush page) (some ((s.flush page t).1.map fun _ => ())) (s.flush page t).2.disk := by
  have bytes : Rewrite.bytes s (.flush page) = (s.checkRange page).bind fun _ => s.readFile page := rfl
  unfold flush
  rcases checked : s.checkRange page with fault | _
  all_goals rw [checked] at bytes
  · exact .refused bytes
  · rcases read : s.readFile page with fault | old
    all_goals replace bytes := bytes.trans read
    · exact .refused bytes
    · have rewrites : s.Rewrites (.flush page) (some (s.replaceFile t page old true).1)
        (s.replaceFile t page old true).2.disk := rewrites_replaceFile bytes t
      dsimp only
      rcases replaced : s.replaceFile t page old true with ⟨_ | _, after⟩
      all_goals
        rw [replaced] at rewrites
        exact rewrites

/-- However calls are refused, a write or a flush ends as it may. -/
theorem rewrites_run (s : PageStore) (r : Rewrite) (t : Trouble) :
    s.Rewrites r (some (r.run t s).1) (r.run t s).2.disk := by
  cases r with
  | write page payload => exact rewrites_write s page payload t
  | flush page => exact rewrites_flush s page t

end PageStore

end PageJournal
