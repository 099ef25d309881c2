import PageJournal.Proofs.Checkpoint.Transparent
import PageJournal.Proofs.Engine.Crash

/-! A checkpoint cycle while transactions go on. It looks which pages are dirty, flushes these and what is
cached, asks for the last sequence number and logs it, and between any two of its turns any transaction
may take one of its own. -/
namespace PageJournal

open Checkpoint (Checkpointer)

/-- How far a cycle has come. -/
inductive Round where
  /-- It knows which pages are dirty. -/
  | collecting (dirty : List PageId)
  /-- So many pages were dirty; these are left, so many are flushed, and these have failed. -/
  | flushing (dirtyPages : Nat) (left : List PageId) (flushed : Nat) (failed : List PageId)
  /-- It has made the record. -/
  | logging (flushed : Nat) (record : Checkpoint.Record)

/-- What is of interest in what happened. -/
inductive Event where
  /-- A transaction has written its page. -/
  | wrote (i : Nat) (page : PageId)
  /-- Its second record has its number. -/
  | numbered (i : Nat) (lsn : UInt64)
  | flushed (page : PageId)
  /-- A cycle has looked which pages are dirty; this was the last number handed out. -/
  | collected (last : UInt64)
  /-- It has asked for the last number. -/
  | asked (last : UInt64)
  | logged (record : Checkpoint.Record)
  deriving DecidableEq

/-- The number that it tells of. -/
def Event.number? : Event → Option UInt64
  | .numbered _ lsn => some lsn
  | .collected last | .asked last => some last
  | .wrote _ _ | .flushed _ | .logged _ => none

/-- An engine with transactions and a checkpoint cycle under way. -/
structure Busy where
  engine : Engine
  stages : List Stage
  round : Option Round
  history : List Event

inductive Turn where
  | begin (thread : UInt32) (operation : Log.Operation) (page : PageId) (payload : Bytes)
  | intend (i : Nat)
  | apply (i : Nat) (trouble : Trouble)
  | number (i : Nat)
  | commit (i : Nat)
  /-- The cycle looks which pages are dirty, and then which are cached. -/
  | collect
  | list
  | flush (page : PageId) (trouble : Trouble)
  /-- A flush waits too long for its lock. -/
  | miss (page : PageId)
  /-- The cycle asks for the last number and makes the record. -/
  | ask (now : UInt64) (thread : UInt32)
  | append (now : UInt64)
  /-- It ends because pages have failed. -/
  | giveUp (now : UInt64)
  /-- It ends because it waits too long for a lock. -/
  | quit

/-- How many sequence numbers it hands out. -/
def Turn.takes : Turn → Nat
  | .begin _ _ _ _ | .number _ => 1
  | _ => 0

namespace Busy

def start (e : Engine) : Busy := ⟨e, [], none, []⟩

def move (s : Busy) (i : Nat) (stage : Stage) (e : Engine) (more : List Event) : Busy :=
  { s with engine := e, stages := s.stages.set i stage, history := s.history ++ more }

def become (s : Busy) (round : Option Round) (c : Checkpointer) (more : List Event) : Busy :=
  { s with engine := s.engine.withCheckpointer c, round, history := s.history ++ more }

def applied (s : Busy) (i : Nat) (t : Transaction) (trouble : Trouble) : Busy :=
  match s.engine.apply t trouble with
  | (.ok _, e) => s.move i (.applied t) e (if t.operation.isWrite then [.wrote i t.page] else [])
  | (.error fault, e) => s.move i .ended (e.abandon t fault) []

def flushed (s : Busy) (page : PageId) (trouble : Trouble) (dirtyPages : Nat) (left : List PageId)
    (count : Nat) (failed : List PageId) : Busy :=
  match s.engine.store.flush page trouble with
  | (.ok _, store) =>
    s.become (some (.flushing dirtyPages left (count + 1) failed)) { s.engine.checkpointer with store }
      [.flushed page]
  | (.error _, store) =>
    s.become (some (.flushing dirtyPages left count (failed ++ [page])))
      { s.engine.checkpointer with store } []

def appended (s : Busy) (now : UInt64) (count : Nat) (record : Checkpoint.Record) : Busy :=
  let c := s.engine.checkpointer
  let (outcome, log, disk) := c.log.append record.line c.store.disk
  let c := { c with log, store := { c.store with disk } }.enter .idle
  match outcome with
  | .error _ => s.become none c []
  | .ok _ => s.become none ((c.count .checkpoints).conclude now record count).2 [.logged record]

def step (s : Busy) : Turn → Option Busy
  | .begin thread operation page payload =>
    let (t, e) := s.engine.begin thread operation page payload
    some { s with engine := e, stages := s.stages ++ [.begun t] }
  | .intend i =>
    match s.stages[i]? with
    | some (.begun t) => some (s.move i (.intended t) (s.engine.log t t.lsn) [])
    | _ => none
  | .apply i trouble =>
    match s.stages[i]? with
    | some (.intended t) => some (s.applied i t trouble)
    | _ => none
  | .number i =>
    match s.stages[i]? with
    | some (.applied t) =>
      let (lsn, e) := s.engine.allocateLsn
      some (s.move i (.numbered t.commit lsn) e [.numbered i lsn])
    | _ => none
  | .commit i =>
    match s.stages[i]? with
    | some (.numbered t lsn) => some (s.move i .ended ((s.engine.log t lsn).count .transactions) [])
    | _ => none
  | .collect =>
    match s.round with
    | none => some (s.become (some (.collecting s.engine.store.dirty))
        (s.engine.checkpointer.enter .collecting) [.collected s.engine.sequence.current])
    | some _ => none
  | .list =>
    match s.round with
    | some (.collecting dirty) =>
      let pages := s.engine.store.cache.ids.foldl (fun pages page => insertPage page pages) dirty
      some (s.become (some (.flushing dirty.length pages 0 []))
        (s.engine.checkpointer.enter .flushing) [])
    | _ => none
  | .flush page trouble =>
    match s.round with
    | some (.flushing dirtyPages left count failed) =>
      if page ∈ left then some (s.flushed page trouble dirtyPages (left.erase page) count failed)
      else none
    | _ => none
  | .miss page =>
    match s.round with
    | some (.flushing dirtyPages left count failed) =>
      if page ∈ left then
        some (s.become (some (.flushing dirtyPages (left.erase page) count (failed ++ [page])))
          s.engine.checkpointer [])
      else none
    | _ => none
  | .ask now thread =>
    match s.round with
    | some (.flushing dirtyPages [] count []) =>
      let last := s.engine.sequence.current
      some (s.become (some (.logging count ⟨now, thread, UInt64.ofNat dirtyPages, last⟩))
        (s.engine.checkpointer.enter .logging) [.asked last])
    | _ => none
  | .append now =>
    match s.round with
    | some (.logging count record) => some (s.appended now count record)
    | _ => none
  | .giveUp now =>
    match s.round with
    | some (.flushing _ [] count (page :: failed)) =>
      let c := (page :: failed).foldl (fun c _ => c.count .errors) s.engine.checkpointer
      some (s.become none (c.giveUp now count (page :: failed)).2 [])
    | _ => none
  | .quit =>
    match s.round with
    | some _ => some (s.become none (s.engine.checkpointer.enter .idle) [])
    | none => none

def run (turns : List Turn) (s : Busy) : Option Busy := turns.foldlM step s

section Alone

variable (trouble : PageId → Trouble)

theorem failures_cons (outcome : PageId × Except Fault Unit) (rest : Checkpoint.Outcomes) :
    Checkpointer.failures (outcome :: rest) =
      Checkpointer.failures [outcome] ++ Checkpointer.failures rest := by
  rw [← List.singleton_append, Checkpointer.failures, List.filter_append, List.map_append]
  rfl

theorem flushed_eq {s : Busy} {page : PageId} {outcome : Except Fault Page} {store : PageStore}
    (flush : s.engine.store.flush page (trouble page) = (outcome, store)) (dirtyPages count : Nat)
    (left failed : List PageId) :
    let t := s.flushed page (trouble page) dirtyPages left count failed
    let fails := Checkpointer.failures [(page, outcome.map fun _ => ())]
    ∃ done, t.engine = { s.engine with store } ∧
      t.round = some (.flushing dirtyPages left done (failed ++ fails)) ∧
      done + fails.length = count + 1 := by
  unfold flushed
  rw [flush]
  cases outcome with
  | error fault => exact ⟨count, rfl, rfl, rfl⟩
  | ok written => exact ⟨count + 1, rfl, by simp [become, Checkpointer.failures, Except.map], rfl⟩

/-- Flushes one behind the other, as a cycle makes them that nothing disturbs. -/
theorem run_flushes (pages : List PageId) (s : Busy) (dirtyPages count : Nat) (failed : List PageId)
    (flushing : s.round = some (.flushing dirtyPages pages count failed)) : ∃ done t,
    let flushes := Checkpointer.flushPages (fun page store => store.flush page (trouble page)) pages
      s.engine.store
    s.run (pages.map fun page => .flush page (trouble page)) = some t ∧
      t.engine = { s.engine with store := flushes.2 } ∧
      t.round = some (.flushing dirtyPages [] done (failed ++ Checkpointer.failures flushes.1)) ∧
      done + (Checkpointer.failures flushes.1).length = count + flushes.1.length := by
  induction pages generalizing s count failed with
  | nil =>
    refine ⟨count, s, rfl, rfl, ?_, rfl⟩
    rw [flushing]
    exact congrArg (fun f => some (Round.flushing dirtyPages [] count f)) (List.append_nil failed).symm
  | cons page rest ih =>
    have first : s.step (.flush page (trouble page)) =
        some (s.flushed page (trouble page) dirtyPages rest count failed) := by
      simp [step, flushing]
    rcases flush : s.engine.store.flush page (trouble page) with ⟨outcome, store⟩
    obtain ⟨one, engine, round, counted⟩ := flushed_eq trouble flush dirtyPages count rest failed
    obtain ⟨done, t, later, engine', round', counted'⟩ := ih _ one _ round
    have store' : (s.flushed page (trouble page) dirtyPages rest count failed).engine.store = store :=
      congrArg Engine.store engine
    rw [store'] at engine' round' counted'
    have parts := failures_cons (page, outcome.map fun _ => ()) (Checkpointer.flushPages
      (fun page store => store.flush page (trouble page)) rest store).1
    simp only [List.map_cons, run, List.foldlM_cons, first, Checkpointer.flushPages, flush]
    rw [parts]
    refine ⟨done, t, later, ?_, ?_, ?_⟩
    · rw [engine', engine]
    · rw [round', List.append_assoc]
    · rw [List.length_append, List.length_cons]
      omega

theorem run_append (a b : List Turn) (s : Busy) : s.run (a ++ b) = (s.run a).bind (run b) :=
  List.foldlM_append

/-- How a cycle ends that has flushed so many of its pages, while these have failed. -/
def ending (now : UInt64) (thread : UInt32) (dirtyPages done : Nat) (failed : List PageId)
    (c : Checkpointer) : Checkpointer :=
  if failed.isEmpty then
    match c.logRecord now thread dirtyPages with
    | (.error _, c) => c
    | (.ok record, c) => ((c.count .checkpoints).conclude now record done).2
  else ((failed.foldl (fun c _ => c.count .errors) c).giveUp now done failed).2

theorem cycle_eq {c : Checkpointer} {outcomes : Checkpoint.Outcomes} {store : PageStore}
    (flushes : Checkpointer.flushPages (fun page store => store.flush page (trouble page)) c.collect.1
      c.store = (outcomes, store)) (now : UInt64) (thread : UInt32) :
    (c.cycle now thread trouble).2 = ending now thread c.store.dirty.length
      (outcomes.length - (Checkpointer.failures outcomes).length) (Checkpointer.failures outcomes)
      { c.enter .flushing with store } := by
  have all : Checkpointer.flushPages (fun page store => store.flush page (trouble page))
    (c.enter .collecting).collect.1 (c.enter .flushing).store = (outcomes, store) := flushes
  have dirty : (c.enter .collecting).collect.2 = c.store.dirty.length := rfl
  unfold Checkpointer.cycle Checkpointer.cycleWith Checkpointer.flushAll ending
  simp only [Checkpointer.flushShares_eq, Checkpointer.flatten_shares, all, dirty]
  split
  · rcases Checkpointer.logRecord now thread c.store.dirty.length _ with ⟨_ | record, c⟩ <;> rfl
  · rfl

theorem run_ending (now : UInt64) (thread : UInt32) {t : Busy} {dirtyPages done : Nat}
    {failed : List PageId} (round : t.round = some (.flushing dirtyPages [] done failed)) :
    ∃ turns u, t.run turns = some u ∧ u.round = none ∧ u.engine =
      t.engine.withCheckpointer (ending now thread dirtyPages done failed t.engine.checkpointer) := by
  cases failed with
  | nil =>
    let record : Checkpoint.Record :=
      ⟨now, thread, UInt64.ofNat dirtyPages, t.engine.sequence.current⟩
    let asked := t.become (some (.logging done record)) (t.engine.checkpointer.enter .logging)
      [.asked t.engine.sequence.current]
    have ask : t.step (.ask now thread) = some asked := by
      unfold step
      rw [round]
    refine ⟨[.ask now thread, .append now], asked.appended now done record, ?_, ?_⟩
    · simp only [run, List.foldlM_cons, List.foldlM_nil, ask]
      rfl
    · have early : asked.engine.checkpointer.log.append record.line
          asked.engine.checkpointer.store.disk =
        t.engine.checkpointLog.append record.line t.engine.store.disk := rfl
      have late : (t.engine.checkpointer.enter .logging).log.append (Checkpoint.Record.line ⟨now, thread,
          UInt64.ofNat dirtyPages, (t.engine.checkpointer.enter .logging).sequence.current⟩)
          (t.engine.checkpointer.enter .logging).store.disk =
        t.engine.checkpointLog.append record.line t.engine.store.disk := rfl
      unfold appended ending Checkpointer.logRecord
      dsimp only [List.isEmpty_nil]
      rw [if_pos rfl, early, late]
      rcases t.engine.checkpointLog.append record.line t.engine.store.disk with ⟨_ | _, log, disk⟩
      all_goals exact ⟨rfl, rfl⟩
  | cons page failed =>
    refine ⟨[.giveUp now], t.become none _ [], ?_, rfl, rfl⟩
    simp only [run, List.foldlM_cons, List.foldlM_nil, step, round]
    rfl

/-- The turns of a cycle, one behind the other, are the cycle. -/
theorem run_cycle (e : Engine) (now : UInt64) (thread : UInt32) : ∃ turns s,
    (start e).run turns = some s ∧ s.round = none ∧
      s.engine = e.withCheckpointer (e.checkpointer.cycle now thread trouble).2 := by
  obtain ⟨s, begun, engine, round⟩ : ∃ s, (start e).run [.collect, .list] = some s ∧
      s.engine = { e with phase := .flushing } ∧
      s.round = some (.flushing e.store.dirty.length e.checkpointer.collect.1 0 []) := ⟨_, rfl, rfl, rfl⟩
  obtain ⟨done, t, later, engine', round', counted⟩ := run_flushes trouble _ s _ _ _ round
  rw [engine] at engine' round' counted
  rcases flushes : Checkpointer.flushPages (fun page store => store.flush page (trouble page))
    e.checkpointer.collect.1 e.store with ⟨outcomes, store⟩
  simp only [flushes, List.nil_append, Nat.zero_add] at engine' round' counted
  obtain ⟨turns, u, last, idle, ended⟩ := run_ending now thread round'
  refine ⟨[.collect, .list] ++ (e.checkpointer.collect.1.map (fun page => .flush page (trouble page)) ++
    turns), u, ?_, idle, ?_⟩
  · rw [run_append, begun, Option.bind_some, run_append, later, Option.bind_some, last]
  · have done' : outcomes.length - (Checkpointer.failures outcomes).length = done := by omega
    rw [ended, engine', cycle_eq trouble flushes now thread, done']
    rfl

/-- The turns of a transaction, one behind the other, are the transaction. -/
theorem run_transaction (e : Engine) (thread : UInt32) (operation : Log.Operation) (page : PageId)
    (payload : Bytes) (refused : Trouble) : ∃ turns s, (start e).run turns = some s ∧
      s.stages = [.ended] ∧ s.engine = ((e.begin thread operation page payload).2.execute
        (e.begin thread operation page payload).1 refused).2 := by
  rcases begun : e.begin thread operation page payload with ⟨x, e'⟩
  rcases applied : (e'.log x x.lsn).apply x refused with ⟨fault | _, after⟩
  · refine ⟨[.begin thread operation page payload, .intend 0, .apply 0 refused], ?_⟩
    simp [run, step, start, begun, Busy.applied, applied, move, Engine.execute]
  · refine ⟨[.begin thread operation page payload, .intend 0, .apply 0 refused, .number 0, .commit 0], ?_⟩
    simp [run, step, start, begun, Busy.applied, applied, move, Engine.execute, Engine.commit]

end Alone

end Busy

end PageJournal
