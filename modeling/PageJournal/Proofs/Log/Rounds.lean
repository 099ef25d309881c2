import Mathlib.Algebra.GroupWithZero.Nat
import PageJournal.Log.Flusher
import PageJournal.Proofs.Word

/-! A drain taken apart, so that producers can push between its steps: the batch is swapped out,
written piece by piece, and settled. A settled batch is acknowledged or put back in front. -/
namespace PageJournal.Log

/-- What a drain holds between its steps. -/
inductive Hand where
  | empty
  /-- Some pieces of the batch still have to be written. -/
  | writing (batch : List Record) (left : List Bytes)
  /-- A piece could not be written. -/
  | failed (batch : List Record) (cause : IoFault)
  deriving DecidableEq, Repr

def Hand.records : Hand → List Record
  | .empty => []
  | .writing batch _ => batch
  | .failed batch _ => batch

/-- A drain that is over: its batch, the sink around it, and what it returned. -/
structure Drain (σ : Type) where
  batch : List Record
  before : σ
  after : σ
  outcome : Except Fault Nat

def Drain.succeeded {σ : Type} (d : Drain σ) : Bool := d.outcome.isOk

namespace Flusher

variable {σ : Type}

def writeNext (io : Sink σ) (hand : Hand) (f : Flusher σ) : Hand × Flusher σ :=
  match hand with
  | .writing batch (piece :: left) =>
    match f.writer.writePiece io piece with
    | (.error cause, writer) => (.failed batch cause, { f with writer })
    | (.ok _, writer) => (.writing batch left, { f with writer })
  | hand => (hand, f)

/-- The writer after a batch went through whole. -/
def countWritten (f : Flusher σ) (batch : List Record) : Flusher σ :=
  { f with
    writer := { f.writer with
      recordsWritten := f.writer.recordsWritten + batch.length
      batchesWritten := f.writer.batchesWritten + 1 } }

def accept (f : Flusher σ) (batch : List Record) : Flusher σ :=
  (f.countWritten batch).acknowledge batch (pieces f.writer.policy batch).length

def putBack (f : Flusher σ) (batch : List Record) : Flusher σ :=
  { f with buffer := f.buffer.requeue batch }

end Flusher

inductive Step where
  /-- A producer pushes a record. -/
  | add (r : Record)
  | swap
  | write
  | settle

def Step.record? : Step → Option Record
  | .add r => some r
  | _ => none

/-- The records that steps push, in their order. -/
def pushed (steps : List Step) : List Record := steps.filterMap Step.record?

/-- A log writer, and the drains behind it that had a batch. -/
structure Loop (σ : Type) where
  flusher : Flusher σ
  hand : Hand
  /-- The sink when the batch in the hand was taken. -/
  since : σ
  drains : List (Drain σ)

namespace Loop

variable {σ : Type}

def start (f : Flusher σ) : Loop σ := ⟨f, .empty, f.writer.sink, []⟩

def ended (l : Loop σ) (batch : List Record) (outcome : Except Fault Nat) (f : Flusher σ) :
    Loop σ :=
  { l with
    flusher := f
    hand := .empty
    drains := l.drains ++ [⟨batch, l.since, f.writer.sink, outcome⟩] }

/-- Starts a drain. One that finds nothing is over at once. -/
def swap (l : Loop σ) : Loop σ :=
  let (batch, f) := l.flusher.swap
  if batch.isEmpty then { l with flusher := f }
  else
    { l with
      flusher := f
      hand := .writing batch (pieces f.writer.policy batch)
      since := f.writer.sink }

/-- One step. The steps of a drain that are not due do nothing. -/
def step (io : Sink σ) (l : Loop σ) : Step → Loop σ
  | .add r => { l with flusher := { l.flusher with buffer := l.flusher.buffer.add r } }
  | .swap => if l.hand = .empty then l.swap else l
  | .write =>
    let (hand, f) := l.flusher.writeNext io l.hand
    { l with flusher := f, hand }
  | .settle =>
    match l.hand with
    | .writing batch [] => l.ended batch (.ok batch.length) (l.flusher.accept batch)
    | .failed batch cause =>
      l.ended batch (.error (Flusher.writeFault cause)) (l.flusher.putBack batch)
    | _ => l

def run (io : Sink σ) (l : Loop σ) (steps : List Step) : Loop σ := steps.foldl (step io) l

/-- The batches of the drains that succeeded, in their order. -/
def batches (drains : List (Drain σ)) : List (List Record) :=
  (drains.filter Drain.succeeded).map Drain.batch

/-- The records that were written and acknowledged. -/
def drained (l : Loop σ) : List Record := (batches l.drains).flatten

/-- Everything that is somewhere, the oldest record first. -/
def contents (l : Loop σ) : List Record :=
  l.drained ++ l.hand.records ++ l.flusher.buffer.records

variable {io : Sink σ}

theorem batches_append (before after : List (Drain σ)) :
    batches (before ++ after) = batches before ++ batches after := by
  rw [batches, List.filter_append, List.map_append]
  rfl

theorem batches_ok (batch : List Record) (before after : σ) (n : Nat) :
    batches [⟨batch, before, after, .ok n⟩] = [batch] := rfl

theorem batches_error (batch : List Record) (before after : σ) (fault : Fault) :
    batches [⟨batch, before, after, .error fault⟩] = [] := rfl

/-- What a step can do. -/
inductive Moves (io : Sink σ) (l : Loop σ) : Step → Loop σ → Prop where
  | add (r : Record) :
    Moves io l (.add r)
      { l with flusher := { l.flusher with buffer := l.flusher.buffer.add r } }
  | take {s : Step} (silent : s.record? = none) (free : l.hand = .empty)
      (waiting : l.flusher.buffer.records ≠ []) :
    Moves io l s { l with
      flusher := { l.flusher with buffer := l.flusher.buffer.swap.2 }
      hand := .writing l.flusher.buffer.records
        (pieces l.flusher.writer.policy l.flusher.buffer.records)
      since := l.flusher.writer.sink }
  | written {s : Step} {batch : List Record} {piece : Bytes} {left : List Bytes}
      {writer : Writer σ} (silent : s.record? = none) (holds : l.hand = .writing batch (piece :: left))
      (wrote : l.flusher.writer.writePiece io piece = (.ok (), writer)) :
    Moves io l s { l with flusher := { l.flusher with writer }, hand := .writing batch left }
  | refused {s : Step} {batch : List Record} {piece : Bytes} {left : List Bytes}
      {cause : IoFault} {writer : Writer σ} (silent : s.record? = none)
      (holds : l.hand = .writing batch (piece :: left))
      (wrote : l.flusher.writer.writePiece io piece = (.error cause, writer)) :
    Moves io l s { l with flusher := { l.flusher with writer }, hand := .failed batch cause }
  | acknowledge {s : Step} {batch : List Record} (silent : s.record? = none)
      (holds : l.hand = .writing batch []) :
    Moves io l s (l.ended batch (.ok batch.length) (l.flusher.accept batch))
  | giveBack {s : Step} {batch : List Record} {cause : IoFault} (silent : s.record? = none)
      (holds : l.hand = .failed batch cause) :
    Moves io l s
      (l.ended batch (.error (Flusher.writeFault cause)) (l.flusher.putBack batch))
  | nothing {s : Step} (silent : s.record? = none) : Moves io l s l

theorem moves (io : Sink σ) (l : Loop σ) (s : Step) : Moves io l s (l.step io s) := by
  cases s with
  | add r => exact .add r
  | swap =>
    rw [step]
    split
    · next free =>
      by_cases none : l.flusher.buffer.records = []
      · have same : l.swap = l := by
          obtain ⟨⟨_, ⟨_, records, _⟩, _, _, _⟩, _, _, _⟩ := l
          cases none
          rfl
        rw [same]
        exact .nothing rfl
      · have nonempty : l.flusher.buffer.records.isEmpty = false := by
          rw [List.isEmpty_eq_false_iff]
          exact none
        rw [swap, Flusher.swap]
        simp only [Buffer.swap, nonempty]
        exact .take rfl free none
    · exact .nothing rfl
  | write =>
    obtain ⟨f, hand, since, drains⟩ := l
    cases hand with
    | empty => exact .nothing rfl
    | failed batch cause => exact .nothing rfl
    | writing batch left =>
      cases left with
      | nil => exact .nothing rfl
      | cons piece left =>
        simp only [step, Flusher.writeNext]
        rcases wrote : f.writer.writePiece io piece with ⟨cause | ⟨⟩, writer⟩
        · exact .refused rfl rfl wrote
        · exact .written rfl rfl wrote
  | settle =>
    rw [step]
    split
    · next holds => exact .acknowledge rfl holds
    · next holds => exact .giveBack rfl holds
    · exact .nothing rfl

/-- A step moves records but never loses, repeats or reorders one. -/
theorem contents_step (io : Sink σ) (l : Loop σ) (s : Step) :
    (l.step io s).contents = l.contents ++ s.record?.toList := by
  have move := moves io l s
  generalize l.step io s = after at move ⊢
  cases move with
  | add r => simp [contents, drained, Step.record?]
  | take silent free waiting => simp [contents, drained, Hand.records, silent, free]
  | written silent holds wrote => simp [contents, drained, Hand.records, silent, holds]
  | refused silent holds wrote => simp [contents, drained, Hand.records, silent, holds]
  | acknowledge silent holds =>
    simp [contents, drained, ended, Hand.records, silent, holds, batches_append, batches_ok,
      Flusher.accept, Flusher.acknowledge, Flusher.countWritten]
  | giveBack silent holds =>
    simp [contents, drained, ended, Hand.records, silent, holds, batches_append, batches_error,
      Flusher.putBack]
  | nothing silent => simp [silent]

theorem contents_run (io : Sink σ) (l : Loop σ) (steps : List Step) :
    (l.run io steps).contents = l.contents ++ pushed steps := by
  induction steps generalizing l with
  | nil => exact (List.append_nil _).symm
  | cons s rest ih =>
    rw [run, List.foldl_cons, ← run, ih, contents_step, List.append_assoc, pushed, pushed]
    congr 1
    cases h : s.record? <;> simp [h]

/-- The highest number among records, a given one at least. -/
def highest (start : UInt64) (rs : List Record) : UInt64 :=
  rs.foldl (fun n r => max n r.lsn) start

/-- How often the batches of a policy were made durable. -/
def syncsOf (policy : SyncPolicy) (batches : List (List Record)) : Nat :=
  (batches.map fun batch => (pieces policy batch).length).sum

/-- The mark and the counts follow from where the writer started and the drains that succeeded. -/
structure Balanced (start : Flusher σ) (l : Loop σ) : Prop where
  policy : l.flusher.writer.policy = start.writer.policy
  durable : l.flusher.sequence.durable = highest start.sequence.durable l.drained
  recordsWritten : l.flusher.counters.get .recordsWritten =
    start.counters.get .recordsWritten + UInt64.ofNat l.drained.length
  batches : l.flusher.counters.get .batches =
    start.counters.get .batches + UInt64.ofNat (batches l.drains).length
  syncs : l.flusher.counters.get .syncs =
    start.counters.get .syncs + UInt64.ofNat (syncsOf start.writer.policy (Loop.batches l.drains))

theorem durable_markBatch (s : Sequence) (batch : List Record) :
    (s.markBatch batch).durable = highest s.durable batch := by
  induction batch generalizing s with
  | nil => rfl
  | cons r rest ih => exact ih (s.markDurable r.lsn)

theorem writePiece_policy (io : Sink σ) (piece : Bytes) (w : Writer σ) :
    (w.writePiece io piece).2.policy = w.policy := by
  simp only [Writer.writePiece, Writer.force]
  split
  · rfl
  · split
    · rfl
    · split <;> rfl

theorem writePieces_policy (io : Sink σ) (left : List Bytes) (w : Writer σ) :
    (w.writePieces io left).2.policy = w.policy := by
  induction left generalizing w with
  | nil => rfl
  | cons piece left ih =>
    have same := writePiece_policy io piece w
    rw [Writer.writePieces]
    split
    · next wrote =>
      rw [wrote] at same
      exact same
    · next wrote =>
      rw [wrote] at same
      exact (ih _).trans same

theorem highest_append (start : UInt64) (a b : List Record) :
    highest start (a ++ b) = highest (highest start a) b := List.foldl_append

theorem balanced_accept {start : Flusher σ} {l : Loop σ} (balanced : Balanced start l)
    (batch : List Record) :
    Balanced start (l.ended batch (.ok batch.length) (l.flusher.accept batch)) := by
  generalize after : l.ended batch (.ok batch.length) (l.flusher.accept batch) = l'
  have more : Loop.batches l'.drains = Loop.batches l.drains ++ [batch] := by
    rw [← after, ended, batches_append, batches_ok]
  have drained : l'.drained = l.drained ++ batch := by
    rw [Loop.drained, more, List.flatten_append, ← Loop.drained]
    simp
  have counters : l'.flusher.counters =
      countBatch l.flusher.counters batch (pieces start.writer.policy batch).length := by
    rw [← after, ← balanced.policy]
    rfl
  exact {
    policy := by
      rw [← after]
      exact balanced.policy
    durable := by
      rw [drained, highest_append, ← balanced.durable, ← after]
      exact durable_markBatch _ _
    recordsWritten := by
      rw [drained, List.length_append, UInt64.ofNat_add, ← UInt64.add_assoc,
        ← balanced.recordsWritten, counters]
      simp [countBatch, Counters.get_add, Counters.get_tick]
    batches := by
      rw [more, List.length_append, UInt64.ofNat_add, ← UInt64.add_assoc, ← balanced.batches,
        counters]
      simp [countBatch, Counters.get_add, Counters.get_tick]
    syncs := by
      rw [more, syncsOf, List.map_append, List.sum_append, UInt64.ofNat_add, ← UInt64.add_assoc,
        ← syncsOf, ← balanced.syncs, counters]
      simp [countBatch, Counters.get_add, Counters.get_tick] }

theorem Balanced.keep {start : Flusher σ} {l after : Loop σ} (balanced : Balanced start l)
    (policy : after.flusher.writer.policy = l.flusher.writer.policy)
    (sequence : after.flusher.sequence = l.flusher.sequence)
    (counters : after.flusher.counters = l.flusher.counters)
    (same : Loop.batches after.drains = Loop.batches l.drains) : Balanced start after where
  policy := policy.trans balanced.policy
  durable := by
    rw [sequence, drained, same]
    exact balanced.durable
  recordsWritten := by
    rw [counters, drained, same]
    exact balanced.recordsWritten
  batches := by
    rw [counters, same]
    exact balanced.batches
  syncs := by
    rw [counters, same]
    exact balanced.syncs

theorem balanced_step {start : Flusher σ} {l : Loop σ} (balanced : Balanced start l) (s : Step) :
    Balanced start (l.step io s) := by
  have move := moves io l s
  generalize l.step io s = after at move ⊢
  cases move with
  | add r => exact balanced.keep rfl rfl rfl rfl
  | take silent free waiting => exact balanced.keep rfl rfl rfl rfl
  | @written _ _ piece _ _ silent holds wrote =>
    have same := writePiece_policy io piece l.flusher.writer
    rw [wrote] at same
    exact balanced.keep same rfl rfl rfl
  | @refused _ _ piece _ _ _ silent holds wrote =>
    have same := writePiece_policy io piece l.flusher.writer
    rw [wrote] at same
    exact balanced.keep same rfl rfl rfl
  | acknowledge silent holds => exact balanced_accept balanced _
  | giveBack silent holds =>
    refine balanced.keep rfl rfl rfl ?_
    simp only [ended]
    rw [batches_append, batches_error, List.append_nil]
  | nothing silent => exact balanced

theorem balanced_run {start : Flusher σ} {l : Loop σ} (balanced : Balanced start l)
    (steps : List Step) : Balanced start (l.run io steps) := by
  induction steps generalizing l with
  | nil => exact balanced
  | cons s rest ih => exact ih (balanced_step balanced s)

theorem balanced_start (f : Flusher σ) : Balanced f (.start f) :=
  ⟨rfl, rfl, (UInt64.add_zero _).symm, (UInt64.add_zero _).symm, (UInt64.add_zero _).symm⟩

/-- The steps of one drain that nobody interrupts. -/
def drainSteps (f : Flusher σ) : List Step :=
  .swap :: List.replicate (pieces f.writer.policy f.buffer.records).length .write ++ [.settle]

theorem run_write_failed (io : Sink σ) (f : Flusher σ) (batch : List Record) (cause : IoFault)
    (since : σ) (drains : List (Drain σ)) (n : Nat) :
    run io ⟨f, .failed batch cause, since, drains⟩ (List.replicate n .write) =
      ⟨f, .failed batch cause, since, drains⟩ := by
  induction n with
  | zero => rfl
  | succ n ih => exact ih

theorem run_write (io : Sink σ) (f : Flusher σ) (batch : List Record) (since : σ)
    (drains : List (Drain σ)) (left : List Bytes) :
    run io ⟨f, .writing batch left, since, drains⟩ (List.replicate left.length .write) =
      match f.writer.writePieces io left with
      | (.ok _, writer) => ⟨{ f with writer }, .writing batch [], since, drains⟩
      | (.error cause, writer) => ⟨{ f with writer }, .failed batch cause, since, drains⟩ := by
  induction left generalizing f with
  | nil => rfl
  | cons piece left ih =>
    rw [List.length_cons, List.replicate_succ, run, List.foldl_cons, ← run]
    simp only [step, Flusher.writeNext, Writer.writePieces]
    rcases f.writer.writePiece io piece with ⟨cause | ⟨⟩, writer⟩
    · exact run_write_failed io _ batch cause since drains left.length
    · exact ih { f with writer }

/-- Without steps in between, the steps of a drain are the drain. -/
theorem run_drainSteps (io : Sink σ) (l : Loop σ) (free : l.hand = .empty)
    (waiting : l.flusher.buffer.records ≠ []) :
    run io l (drainSteps l.flusher) =
      { flusher := (l.flusher.drain io).2
        hand := .empty
        since := l.flusher.writer.sink
        drains := l.drains ++ [⟨l.flusher.buffer.records, l.flusher.writer.sink,
          (l.flusher.drain io).2.writer.sink, (l.flusher.drain io).1⟩] } := by
  obtain ⟨f, _, since, drains⟩ := l
  cases free
  have nonempty : f.buffer.records.isEmpty = false := by
    rw [List.isEmpty_eq_false_iff]
    exact waiting
  let taken : Loop σ :=
    ⟨f.swap.2, .writing f.buffer.records (pieces f.writer.policy f.buffer.records),
      f.writer.sink, drains⟩
  have first : step io ⟨f, .empty, since, drains⟩ .swap = taken := by
    simp [taken, step, swap, Flusher.swap, Buffer.swap, nonempty]
  have last : run io ⟨f, .empty, since, drains⟩ (drainSteps f) =
      step io (run io taken
        (List.replicate (pieces f.writer.policy f.buffer.records).length .write)) .settle := by
    rw [drainSteps, List.cons_append, run, List.foldl_cons, first, List.foldl_append]
    rfl
  have policy := writePieces_policy io (pieces f.writer.policy f.buffer.records) f.writer
  rw [last, run_write]
  simp only [Flusher.drain, Flusher.swap, Flusher.deliver, Writer.writeBatch, Buffer.swap, nonempty,
    Bool.false_eq_true, if_false]
  rcases wrote : f.writer.writePieces io (pieces f.writer.policy f.buffer.records) with
    ⟨cause | ⟨⟩, writer⟩
  · rfl
  · have same : writer.policy = f.writer.policy := by
      rw [wrote] at policy
      exact policy
    simp only [step, Flusher.accept, Flusher.countWritten, same]
    rfl

/-- The records that were added are at every moment the ones acknowledged, the ones in the drain's
hand and the ones that wait, in this order. The durable mark and the counts tell of the acknowledged
ones, so that drains that fail do not move them. -/
theorem conserved (io : Sink σ) (f : Flusher σ) (steps more : List Step) :
    let l := run io (.start f) steps
    let later := run io l more
    l.drained ++ l.hand.records ++ l.flusher.buffer.records = f.buffer.records ++ pushed steps ∧
    l.flusher.sequence.durable = highest f.sequence.durable l.drained ∧
    l.flusher.counters.get .recordsWritten =
      f.counters.get .recordsWritten + UInt64.ofNat l.drained.length ∧
    (∀ failures : List (Drain σ), later.drains = l.drains ++ failures →
      (∀ d ∈ failures, d.succeeded = false) →
      later.flusher.sequence.durable = l.flusher.sequence.durable ∧
      later.flusher.counters.get .recordsWritten = l.flusher.counters.get .recordsWritten ∧
      later.flusher.counters.get .batches = l.flusher.counters.get .batches ∧
      later.flusher.counters.get .syncs = l.flusher.counters.get .syncs) := by
  intro l later
  have here : Balanced f l := balanced_run (balanced_start f) steps
  have there : Balanced f later := balanced_run here more
  refine ⟨contents_run io (.start f) steps, here.durable, here.recordsWritten, ?_⟩
  intro failures grown failed
  have none : failures.filter Drain.succeeded = [] := by
    rw [List.filter_eq_nil_iff]
    intro d mem succeeded
    rw [failed d mem] at succeeded
    contradiction
  have same : batches later.drains = batches l.drains := by
    rw [grown, batches_append, batches, batches, none]
    exact List.append_nil _
  have sameDrained : later.drained = l.drained := congrArg List.flatten same
  refine ⟨?_, ?_, ?_, ?_⟩
  · rw [there.durable, here.durable, sameDrained]
  · rw [there.recordsWritten, here.recordsWritten, sameDrained]
  · rw [there.batches, here.batches, same]
  · rw [there.syncs, here.syncs, same]

end Loop

/-- A sink that answers its first writes as told, and then takes everything. -/
def Sink.scripted : Sink (List (Except IoFault Nat)) where
  write bytes
    | [] => (.ok bytes.length, [])
    | answer :: script => (answer, script)
  flush script := (.ok (), script)
  sync script := (.ok (), script)

/-- A new log writer whose first writes are answered as told. -/
def Flusher.scripted (policy : SyncPolicy) (script : List (Except IoFault Nat)) :
    Flusher (List (Except IoFault Nat)) where
  writer := { sink := script, policy }
  buffer := .create 4
  sequence := .startingAt 1
  counters := {}
  events := ⟨.file 0, []⟩

def Record.numbered (n : UInt64) : Record := ⟨n, n, 0, .insert, 1, 8, 5, false⟩

theorem Loop.conserved_refused :
    let first := run .scripted (start (.scripted .perBatch [.error .takesNothing]))
      [.add (.numbered 1)]
    let later := run .scripted first [.swap, .add (.numbered 2), .write, .settle]
    later.drains ≠ [] ∧ later.flusher.sequence.durable = first.flusher.sequence.durable ∧
      later.flusher.counters.get .recordsWritten = first.flusher.counters.get .recordsWritten ∧
      later.flusher.counters.get .batches = first.flusher.counters.get .batches ∧
      later.flusher.counters.get .syncs = first.flusher.counters.get .syncs := by
  intro first later
  have failed : ∀ d ∈ later.drains, d.succeeded = false := by decide +kernel
  refine ⟨by decide +kernel, ?_⟩
  exact (conserved .scripted (.scripted .perBatch [.error .takesNothing]) [.add (.numbered 1)]
    [.swap, .add (.numbered 2), .write, .settle]).2.2.2 later.drains rfl failed

end PageJournal.Log
