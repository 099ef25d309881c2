import PageJournal.Proofs.Log.Rounds

/-! How the log writer is woken. A producer that has filled a batch leaves its request in a step of its own, behind
the push; the writer waits for a request or until its interval is over, and then drains. However these steps
fall between each other, a full batch does not wait for the interval. -/
namespace PageJournal.Log

/-- A log writer in its loop, and the producers beside it. -/
structure Shift (σ : Type) where
  loop : Loop σ
  /-- The writer has stopped waiting and has not swapped yet. -/
  awake : Bool
  /-- Which producers have filled a batch and not asked for it to be written yet. -/
  owing : List Bool

namespace Shift

variable {σ : Type} {io : Sink σ} {s : Shift σ}

def buffer (s : Shift σ) : Buffer := s.loop.flusher.buffer

def withBuffer (s : Shift σ) (b : Buffer) : Shift σ :=
  { s with loop := { s.loop with flusher := { s.loop.flusher with buffer := b } } }

/-- The writer is between two rounds. -/
def Waits (s : Shift σ) : Prop := s.awake = false ∧ s.loop.hand = .empty

instance (s : Shift σ) : Decidable s.Waits := by
  unfold Waits
  infer_instance

/-- No batch has been put back since the last one that was written. -/
def Steady (s : Shift σ) : Prop := ∀ d ∈ s.loop.drains.getLast?, d.succeeded = true

instance (s : Shift σ) : Decidable s.Steady := by
  unfold Steady
  infer_instance

inductive Act where
  | push (producer : Nat) (r : Record)
  | ask (producer : Nat)
  /-- The writer takes a request. -/
  | receive
  /-- The writer has waited for its whole interval. -/
  | elapse
  | swap
  | write
  | settle

/-- One step. What is not due does nothing. -/
def step (io : Sink σ) (s : Shift σ) : Act → Shift σ
  | .push producer r =>
    if s.owing[producer]? = some false then
      { s.withBuffer (s.buffer.push r) with owing := s.owing.set producer (s.buffer.push r).isFull }
    else s
  | .ask producer =>
    if s.owing[producer]? = some true then
      { s.withBuffer s.buffer.request with owing := s.owing.set producer false }
    else s
  | .receive =>
    if s.Waits ∧ s.buffer.requested then { s.withBuffer s.buffer.takeRequest.2 with awake := true } else s
  | .elapse => if s.Waits then { s with awake := true } else s
  | .swap => if s.awake then { s with loop := s.loop.step io .swap, awake := false } else s
  | .write => { s with loop := s.loop.step io .write }
  | .settle => { s with loop := s.loop.step io .settle }

def run (io : Sink σ) (s : Shift σ) (acts : List Act) : Shift σ := acts.foldl (step io) s

/-- A writer with an empty buffer, and so many producers. -/
def start (f : Flusher σ) (batchSize producers : Nat) : Shift σ where
  loop := .start { f with buffer := .create batchSize }
  awake := false
  owing := List.replicate producers false

theorem run_append (io : Sink σ) (s : Shift σ) (first later : List Act) :
    s.run io (first ++ later) = (s.run io first).run io later := List.foldl_append

/-- A push and the request behind it, with nothing in between, are the addition of a record. -/
theorem run_add (io : Sink σ) (s : Shift σ) {producer : Nat} (idle : s.owing[producer]? = some false)
    (r : Record) :
    s.run io [.push producer r, .ask producer] = { s with loop := s.loop.step io (.add r) } := by
  obtain ⟨inside, known⟩ := List.getElem?_eq_some_iff.mp idle
  have back : s.owing.set producer false = s.owing := by
    rw [← known]
    exact List.set_getElem_self inside
  have pushed : s.step io (.push producer r) =
      { s.withBuffer (s.buffer.push r) with owing := s.owing.set producer (s.buffer.push r).isFull } :=
    if_pos idle
  have added : s.loop.step io (.add r) = (s.withBuffer (s.buffer.add r)).loop := rfl
  simp only [run, List.foldl_cons, List.foldl_nil, pushed, added, Buffer.add]
  cases full : (s.buffer.push r).isFull with
  | true =>
    simp only [step, List.getElem?_set_self inside, if_true, List.set_set, back]
    rfl
  | false =>
    simp only [step, back, idle, Option.some.injEq, Bool.false_eq_true, if_false]
    rfl

theorem run_writes (io : Sink σ) (s : Shift σ) (n : Nat) :
    s.run io (List.replicate n .write) = { s with loop := s.loop.run io (List.replicate n .write) } := by
  induction n generalizing s with
  | zero => rfl
  | succ n ih => exact ih (s.step io .write)

/-- What the writer does in a round behind its waiting. -/
def drainActs (s : Shift σ) : List Act :=
  .swap :: List.replicate (pieces s.loop.flusher.writer.policy s.buffer.records).length .write ++ [.settle]

theorem run_drainActs (io : Sink σ) (awake : s.awake = true) :
    s.run io s.drainActs =
      { s with loop := s.loop.run io (Loop.drainSteps s.loop.flusher), awake := false } := by
  have swapped : s.run io [.swap] = { s with loop := s.loop.step io .swap, awake := false } := if_pos awake
  have split : s.drainActs = [.swap] ++ List.replicate
      (pieces s.loop.flusher.writer.policy s.buffer.records).length .write ++ [.settle] := rfl
  rw [split, run_append, run_append, swapped, run_writes]
  simp only [Loop.drainSteps, Loop.run, List.cons_append, List.foldl_cons, List.foldl_append]
  rfl

/-- A request that is taken begins a round of the background writer. -/
theorem run_round (io : Sink σ) (now : UInt64) (waits : s.Waits) (requested : s.buffer.requested = true)
    (waiting : s.buffer.records ≠ []) :
    let after := s.run io (.receive :: s.drainActs)
    after.Waits ∧ after.loop.flusher.writer = (s.loop.flusher.round io now).writer ∧
      after.buffer = (s.loop.flusher.round io now).buffer := by
  intro after
  let awake : Shift σ := { s.withBuffer s.buffer.takeRequest.2 with awake := true }
  have received : s.step io .receive = awake := if_pos ⟨waits, requested⟩
  have drained := Loop.run_drainSteps io awake.loop waits.2 waiting
  have acts : after = { awake with
      loop := awake.loop.run io (Loop.drainSteps awake.loop.flusher)
      awake := false } := by
    calc after = (s.step io .receive).run io awake.drainActs := rfl
      _ = awake.run io awake.drainActs := by rw [received]
      _ = _ := run_drainActs io rfl
  have taken : { s.loop.flusher with buffer := s.loop.flusher.buffer.takeRequest.2 } = awake.loop.flusher := rfl
  rw [acts, drained]
  simp only [Flusher.round, taken]
  refine ⟨⟨rfl, rfl⟩, ?_⟩
  rcases awake.loop.flusher.drain io with ⟨fault | n, f⟩
  · exact ⟨rfl, rfl⟩
  · exact ⟨rfl, rfl⟩

/-- Nobody forgets a full batch. -/
structure Alert (batchSize : Nat) (s : Shift σ) : Prop where
  size : s.buffer.batchSize = max batchSize 1
  /-- The writer drains only behind its waiting. -/
  free : s.awake = true → s.loop.hand = .empty
  /-- While a batch is in the writer's hand, all that waits was pushed since, as after a batch that was written. -/
  known : s.loop.hand ≠ .empty ∨ s.Steady → s.buffer.isFull = true →
    s.buffer.requested = true ∨ true ∈ s.owing ∨ s.awake = true

variable {batchSize : Nat}

theorem alert_start (f : Flusher σ) (batchSize producers : Nat) : Alert batchSize (start f batchSize producers) where
  size := rfl
  free _ := rfl
  known _ full := by
    simp [start, buffer, Loop.start, Buffer.isFull, Buffer.create] at full

theorem Alert.push (alert : Alert batchSize s) (producer : Nat) (r : Record) :
    Alert batchSize (s.step io (.push producer r)) := by
  rw [step]
  split
  · next idle =>
    obtain ⟨inside, -⟩ := List.getElem?_eq_some_iff.mp idle
    refine ⟨alert.size, alert.free, fun _ full => .inr (.inl ?_)⟩
    have full : (s.buffer.push r).isFull = true := full
    rw [full]
    exact List.mem_set inside true
  · exact alert

theorem Alert.ask (alert : Alert batchSize s) (producer : Nat) :
    Alert batchSize (s.step io (.ask producer)) := by
  rw [step]
  split
  · exact ⟨alert.size, alert.free, fun _ _ => .inl rfl⟩
  · exact alert

theorem Alert.receive (alert : Alert batchSize s) : Alert batchSize (s.step io .receive) := by
  rw [step]
  split
  · next ready => exact ⟨alert.size, fun _ => ready.1.2, fun _ _ => .inr (.inr rfl)⟩
  · exact alert

theorem Alert.elapse (alert : Alert batchSize s) : Alert batchSize (s.step io .elapse) := by
  rw [step]
  split
  · next waits => exact ⟨alert.size, fun _ => waits.2, fun _ _ => .inr (.inr rfl)⟩
  · exact alert

theorem buffer_swap (io : Sink σ) {l : Loop σ} (free : l.hand = .empty) :
    (l.step io .swap).flusher.buffer = l.flusher.buffer.swap.2 := by
  rw [Loop.step, if_pos free]
  unfold Loop.swap
  dsimp only
  split <;> rfl

theorem records_swap (io : Sink σ) {l : Loop σ} (free : l.hand = .empty) :
    (l.step io .swap).hand.records = l.flusher.buffer.records := by
  rw [Loop.step, if_pos free]
  unfold Loop.swap
  dsimp only
  split
  · next none =>
    rw [free]
    exact (List.isEmpty_iff.mp none).symm
  · rfl

theorem Alert.swap (alert : Alert batchSize s) : Alert batchSize (s.step io .swap) := by
  rw [step]
  split
  · next awake =>
    have swapped : buffer { s with loop := s.loop.step io .swap, awake := false } = s.buffer.swap.2 :=
      buffer_swap io (alert.free awake)
    refine ⟨?_, nofun, fun _ full => ?_⟩
    · rw [swapped, ← alert.size]
      rfl
    · -- nothing is left, and no batch is that small
      have none : max batchSize 1 ≤ 0 := by
        rw [swapped, Buffer.isFull, decide_eq_true_iff] at full
        rw [← alert.size]
        exact full
      omega
  · exact alert

theorem write_aside (io : Sink σ) (l : Loop σ) :
    (l.step io .write).flusher.buffer = l.flusher.buffer ∧ (l.step io .write).drains = l.drains ∧
      ((l.step io .write).hand = .empty ↔ l.hand = .empty) := by
  obtain ⟨f, hand, since, drains⟩ := l
  cases hand with
  | empty => exact ⟨rfl, rfl, .rfl⟩
  | failed batch cause => exact ⟨rfl, rfl, .rfl⟩
  | writing batch left =>
    cases left with
    | nil => exact ⟨rfl, rfl, .rfl⟩
    | cons piece left =>
      rcases wrote : f.writer.writePiece io piece with ⟨cause | ⟨⟩, writer⟩
      · simp [Loop.step, Flusher.writeNext, wrote]
      · simp [Loop.step, Flusher.writeNext, wrote]

theorem Alert.write (alert : Alert batchSize s) : Alert batchSize (s.step io .write) := by
  obtain ⟨buffer, drains, hand⟩ := write_aside io s.loop
  have same : (s.step io .write).buffer = s.buffer := buffer
  refine ⟨by rw [same, alert.size], fun awake => hand.mpr (alert.free awake), fun calm full => ?_⟩
  rw [same] at full ⊢
  refine alert.known ?_ full
  rcases calm with busy | steady
  · exact .inl fun free => busy (hand.mpr free)
  · refine .inr fun d last => steady d ?_
    rw [step, drains]
    exact last

theorem Alert.settle (alert : Alert batchSize s) : Alert batchSize (s.step io .settle) := by
  obtain ⟨⟨f, hand, since, drains⟩, awake, owing⟩ := s
  cases hand with
  | empty => exact alert
  | failed batch cause =>
    refine ⟨alert.size, fun _ => rfl, fun calm => ?_⟩
    rcases calm with busy | steady
    · exact absurd rfl busy
    · have failed := steady _ List.getLast?_concat
      cases failed
  | writing batch left =>
    cases left with
    | nil =>
      -- all that waits was pushed behind the swap
      exact ⟨alert.size, fun _ => rfl, fun _ => alert.known (.inl nofun)⟩
    | cons piece left => exact alert

theorem Alert.step (alert : Alert batchSize s) (act : Act) : Alert batchSize (s.step io act) := by
  cases act with
  | push producer r => exact alert.push producer r
  | ask producer => exact alert.ask producer
  | receive => exact alert.receive
  | elapse => exact alert.elapse
  | swap => exact alert.swap
  | write => exact alert.write
  | settle => exact alert.settle

theorem Alert.run (alert : Alert batchSize s) (acts : List Act) : Alert batchSize (s.run io acts) := by
  induction acts generalizing s with
  | nil => exact alert
  | cons act rest ih => exact ih (alert.step act)

/-- When nobody is at work and no failed batch has come back, a full buffer has its request waiting. Taking it begins
a round that takes all that waits. -/
theorem full_batch_has_request (io : Sink σ) (f : Flusher σ) (batchSize producers : Nat) (acts : List Act)
    (now : UInt64) :
    let s := run io (start f batchSize producers) acts
    s.Waits → true ∉ s.owing → s.Steady → max batchSize 1 ≤ s.buffer.records.length →
      s.buffer.requested = true ∧
      (s.run io [.receive, .swap]).loop.hand.records = s.buffer.records ∧
      let after := s.run io (.receive :: s.drainActs)
      after.Waits ∧ after.loop.flusher.writer = (s.loop.flusher.round io now).writer ∧
        after.buffer = (s.loop.flusher.round io now).buffer := by
  intro s waits settled steady full
  have alert : Alert batchSize s := (alert_start f batchSize producers).run acts
  have requested : s.buffer.requested = true := by
    have full : s.buffer.isFull = true := by
      rw [Buffer.isFull, alert.size, decide_eq_true_iff]
      exact full
    rcases alert.known (.inr steady) full with requested | owing | awake
    · exact requested
    · exact absurd owing settled
    · cases awake.symm.trans waits.1
  have waiting : s.buffer.records ≠ [] := by
    intro none
    rw [none, List.length_nil] at full
    omega
  refine ⟨requested, ?_, run_round io now waits requested waiting⟩
  have received : s.step io .receive = { s.withBuffer s.buffer.takeRequest.2 with awake := true } :=
    if_pos ⟨waits, requested⟩
  rw [run, List.foldl_cons, received]
  exact records_swap io (l := (s.withBuffer s.buffer.takeRequest.2).loop) waits.2

/-- The writer's first batch is refused and comes back, and a second producer fills the buffer again while the
retry is in the writer's hand. -/
theorem full_batch_has_request_retried :
    let s := run .scripted (start (.scripted .perBatch [.error .takesNothing]) 2 2)
      [.push 0 (.numbered 1), .push 1 (.numbered 2), .elapse, .swap, .ask 1, .write, .settle,
        .receive, .swap, .write, .push 0 (.numbered 3), .push 1 (.numbered 4), .settle, .ask 1]
    s.Waits ∧ true ∉ s.owing ∧ s.Steady ∧ max 2 1 ≤ s.buffer.records.length ∧ s.buffer.requested = true ∧
      (s.run .scripted [.receive, .swap]).loop.hand.records = [.numbered 3, .numbered 4] := by
  intro s
  have waits : s.Waits := by decide +kernel
  have settled : true ∉ s.owing := by decide +kernel
  have steady : s.Steady := by decide +kernel
  have full : max 2 1 ≤ s.buffer.records.length := by decide +kernel
  obtain ⟨requested, taken, -⟩ := full_batch_has_request .scripted
    (.scripted .perBatch [.error .takesNothing]) 2 2 _ 0 waits settled steady full
  refine ⟨waits, settled, steady, full, requested, taken.trans ?_⟩
  decide +kernel

end Shift

end PageJournal.Log
