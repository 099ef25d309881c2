import Mathlib.Algebra.BigOperators.Ring.List
import Mathlib.Algebra.Ring.Nat
import PageJournal.Log.File
import PageJournal.Proofs.Log.Locality
import PageJournal.Proofs.Volume.Directories

/-! What writers put into a log is read back, however the records are divided. A file that takes some bytes
with every call gets the lines of all records in their order, whoever writes them and in whatever batches. -/
namespace PageJournal.Log

variable {σ : Type}

/-- Calls that never fail on a file. What it holds grows by the bytes that a call takes, and of the bytes that
it is given a call takes at least one. -/
structure Sink.Accepts (io : Sink σ) (holds : σ → Bytes → Prop) : Prop where
  write : ∀ b rest s old, holds s old → ∃ n t, n ≤ rest.length ∧
    io.write (b :: rest) s = (.ok (n + 1), t) ∧ holds t (old ++ (b :: rest).take (n + 1))
  flush : ∀ s old, holds s old → ∃ t, io.flush s = (.ok (), t) ∧ holds t old
  sync : ∀ s old, holds s old → ∃ t, io.sync s = (.ok (), t) ∧ holds t old

/-- How often a batch is made durable. -/
def syncsOf (policy : SyncPolicy) (batch : List Record) : Nat :=
  match policy with
  | .perBatch => if batch = [] then 0 else 1
  | .perRecord => batch.length

theorem sum_syncsOf (policy : SyncPolicy) (batches : List (List Record)) :
    (batches.map (syncsOf policy)).sum = match policy with
      | .perBatch => batches.countP (· ≠ [])
      | .perRecord => batches.flatten.length := by
  cases policy with
  | perBatch =>
    induction batches with
    | nil => rfl
    | cons batch rest ih =>
      dsimp only at ih ⊢
      rw [List.map_cons, List.sum_cons, ih, List.countP_cons, Nat.add_comm]
      cases batch <;> rfl
  | perRecord => exact List.length_flatten.symm

namespace Writer

/-- Writes batches one after another, until one fails, and tells what each of them returned. -/
def writeBatches (io : Sink σ) : List (List Record) → Writer σ → Except IoFault (List Nat × Writer σ)
  | [], w => .ok ([], w)
  | batch :: rest, w =>
    match w.writeBatch io batch with
    | (.error cause, _) => .error cause
    | (.ok n, w) => (writeBatches io rest w).map fun done => (n :: done.1, done.2)

/-- The writer after batches went through whole. -/
def counting (batches : List (List Record)) (t : σ) (w : Writer σ) : Writer σ where
  sink := t
  policy := w.policy
  recordsWritten := w.recordsWritten + batches.flatten.length
  batchesWritten := w.batchesWritten + batches.countP (· ≠ [])
  syncs := w.syncs + (batches.map (syncsOf w.policy)).sum

end Writer

section Accepts

variable {io : Sink σ} {holds : σ → Bytes → Prop} {old : Bytes}

theorem Sink.Accepts.writeAll (law : io.Accepts holds) (bytes : Bytes) (s : σ) (held : holds s old) :
    ∃ t, io.writeAll bytes s = (.ok (), t) ∧ holds t (old ++ bytes) := by
  fun_induction Sink.writeAll io bytes s generalizing old with
  | case1 s => exact ⟨s, rfl, by rwa [List.append_nil]⟩
  | case2 b rest s cause t wrote =>
    obtain ⟨n, u, -, taken, -⟩ := law.write b rest s old held
    rw [wrote] at taken
    cases taken
  | case3 b rest s t wrote =>
    obtain ⟨n, u, -, taken, -⟩ := law.write b rest s old held
    rw [wrote] at taken
    cases taken
  | case4 b rest s n t wrote ih =>
    obtain ⟨m, u, -, taken, grown⟩ := law.write b rest s old held
    rw [wrote] at taken
    cases taken
    obtain ⟨last, done, whole⟩ := ih grown
    refine ⟨last, done, ?_⟩
    rwa [List.take_succ_cons, List.append_assoc, List.cons_append, List.take_append_drop] at whole

theorem Sink.Accepts.writePiece (law : io.Accepts holds) (piece : Bytes) (w : Writer σ)
    (held : holds w.sink old) : ∃ t, holds t (old ++ piece) ∧
      w.writePiece io piece = (.ok (), { w with sink := t, syncs := w.syncs + 1 }) := by
  obtain ⟨s, wrote, grown⟩ := law.writeAll piece w.sink held
  obtain ⟨flushed, flush, kept⟩ := law.flush s _ grown
  obtain ⟨t, sync, whole⟩ := law.sync flushed _ kept
  refine ⟨t, whole, ?_⟩
  simp only [Writer.writePiece, wrote, Writer.force, flush, sync]

theorem Sink.Accepts.writePieces (law : io.Accepts holds) (ps : List Bytes) (w : Writer σ)
    (held : holds w.sink old) : ∃ t, holds t (old ++ ps.flatten) ∧
      w.writePieces io ps = (.ok (), { w with sink := t, syncs := w.syncs + ps.length }) := by
  induction ps generalizing w old with
  | nil => exact ⟨w.sink, by rwa [List.flatten_nil, List.append_nil], rfl⟩
  | cons piece rest ih =>
    obtain ⟨s, grown, wrote⟩ := law.writePiece piece w held
    obtain ⟨t, whole, done⟩ := ih { w with sink := s, syncs := w.syncs + 1 } grown
    refine ⟨t, by rwa [List.flatten_cons, ← List.append_assoc], ?_⟩
    simp only [Writer.writePieces, wrote, done, List.length_cons, Nat.add_assoc, Nat.add_comm 1]

theorem Sink.Accepts.writeBatch (law : io.Accepts holds) (batch : List Record) (w : Writer σ)
    (held : holds w.sink old) : ∃ t, holds t (old ++ batch.flatMap Record.line) ∧
      w.writeBatch io batch = (.ok (syncsOf w.policy batch), w.counting [batch] t) := by
  cases batch with
  | nil =>
    have none : syncsOf w.policy [] = 0 := by cases w.policy <;> rfl
    refine ⟨w.sink, by rwa [List.flatMap_nil, List.append_nil], ?_⟩
    simp [Writer.writeBatch, Writer.counting, none]
  | cons r rest =>
    obtain ⟨t, whole, done⟩ := law.writePieces (pieces w.policy (r :: rest)) w held
    rw [flatten_pieces] at whole
    have forced : (pieces w.policy (r :: rest)).length = syncsOf w.policy (r :: rest) := by
      cases w.policy <;> simp [pieces, syncsOf]
    refine ⟨t, whole, ?_⟩
    simp [Writer.writeBatch, done, forced, Writer.counting]

theorem Writer.counting_counting (first rest : List (List Record)) (t u : σ) (w : Writer σ) :
    (w.counting first t).counting rest u = w.counting (first ++ rest) u := by
  simp [Writer.counting, Nat.add_assoc]

theorem Sink.Accepts.writeBatches (law : io.Accepts holds) (batches : List (List Record)) (w : Writer σ)
    (held : holds w.sink old) : ∃ t, holds t (old ++ batches.flatten.flatMap Record.line) ∧
      w.writeBatches io batches = .ok (batches.map (syncsOf w.policy), w.counting batches t) := by
  induction batches generalizing w old with
  | nil => exact ⟨w.sink, by rwa [List.flatten_nil, List.flatMap_nil, List.append_nil], rfl⟩
  | cons batch rest ih =>
    obtain ⟨s, grown, wrote⟩ := law.writeBatch batch w held
    obtain ⟨t, whole, done⟩ := ih (w.counting [batch] s) grown
    refine ⟨t, by rwa [List.flatten_cons, List.flatMap_append, ← List.append_assoc], ?_⟩
    simp only [Writer.writeBatches, wrote, done, Except.map, Writer.counting_counting]
    rfl

end Accepts

/-- What one writer does: it opens the file, and writes batches. -/
structure Stint (σ : Type) where
  opens : σ → Except IoFault (Sink σ × σ)
  policy : SyncPolicy
  batches : List (List Record)

namespace Stint

/-- The opening succeeds, changes nothing in the file, and gives calls that do not fail on it. -/
def Opens (holds : σ → Bytes → Prop) (x : Stint σ) : Prop :=
  ∀ s old, holds s old → ∃ io t, x.opens s = .ok (io, t) ∧ io.Accepts holds ∧ holds t old

/-- The writer when it has written its batches, and what each of them returned. -/
def run (x : Stint σ) (s : σ) : Except IoFault (List Nat × Writer σ) := do
  let (io, s) ← x.opens s
  Writer.writeBatches io x.batches { sink := s, policy := x.policy }

/-- Writers one after another, and the file after the last of them. -/
def runAll : List (Stint σ) → σ → Except IoFault (List (List Nat × Writer σ) × σ)
  | [], s => .ok ([], s)
  | x :: rest, s => do
    let done ← x.run s
    let (others, s) ← runAll rest done.2.sink
    .ok (done :: others, s)

/-- What a writer tells when it has written all its batches: each of them returned how often it was made
durable, and the counts are those of the batches. -/
structure Tells (x : Stint σ) (done : List Nat × Writer σ) : Prop where
  returned : done.1 = x.batches.map (syncsOf x.policy)
  records : done.2.recordsWritten = x.batches.flatten.length
  batches : done.2.batchesWritten = x.batches.countP (· ≠ [])
  syncs : done.2.syncs = match x.policy with
    | .perBatch => x.batches.countP (· ≠ [])
    | .perRecord => x.batches.flatten.length

variable {holds : σ → Bytes → Prop} {old : Bytes} {x : Stint σ} {s : σ}

theorem Opens.run (opens : x.Opens holds) (held : holds s old) :
    ∃ done, x.run s = .ok done ∧ holds done.2.sink (old ++ x.batches.flatten.flatMap Record.line) ∧
      x.Tells done := by
  obtain ⟨io, t, opened, law, kept⟩ := opens s old held
  obtain ⟨u, whole, done⟩ := law.writeBatches x.batches { sink := t, policy := x.policy } kept
  have ran : x.run s = Writer.writeBatches io x.batches { sink := t, policy := x.policy } := by
    simp only [Stint.run, opened, bind, Except.bind]
  refine ⟨_, ran.trans done, whole, rfl, Nat.zero_add _, Nat.zero_add _, ?_⟩
  exact (Nat.zero_add _).trans (sum_syncsOf x.policy x.batches)

theorem runAll_ok {stints : List (Stint σ)} (opens : ∀ x ∈ stints, x.Opens holds) (held : holds s old) :
    ∃ done t, runAll stints s = .ok (done, t) ∧
      holds t (old ++ (stints.flatMap Stint.batches).flatten.flatMap Record.line) ∧
      List.Forall₂ Tells stints done := by
  induction stints generalizing s old with
  | nil => exact ⟨[], s, rfl, by simpa using held, .nil⟩
  | cons x rest ih =>
    obtain ⟨first, later⟩ := List.forall_mem_cons.mp opens
    obtain ⟨one, ran, grown, tells⟩ := first.run held
    obtain ⟨others, t, rest, whole, all⟩ := ih later grown
    refine ⟨one :: others, t, ?_, ?_, .cons tells all⟩
    · simp only [runAll, ran, rest, bind, Except.bind]
    · rwa [List.flatMap_cons, List.flatten_append, List.flatMap_append, ← List.append_assoc]

/-- The batches that writers of a policy write. -/
def batchesUnder (policy : SyncPolicy) (stints : List (Stint σ)) : List (List Record) :=
  (stints.filter (·.policy = policy)).flatMap Stint.batches

variable {stints : List (Stint σ)} {done : List (List Nat × Writer σ)}

/-- Where each writer tells a count of its batches, and batches count apart, all of them tell the count of
all batches. -/
theorem sum_told (tell : List Nat × Writer σ → Nat) (count : List (List Record) → Nat)
    (nothing : count [] = 0) (append : ∀ first rest, count (first ++ rest) = count first + count rest)
    (told : ∀ x did, Tells x did → tell did = count x.batches) (all : List.Forall₂ Tells stints done) :
    (done.map tell).sum = count (stints.flatMap Stint.batches) := by
  induction all with
  | nil => exact nothing.symm
  | cons tells _ ih =>
    rw [List.map_cons, List.sum_cons, told _ _ tells, ih, List.flatMap_cons, append]

theorem sum_records (all : List.Forall₂ Tells stints done) :
    (done.map (·.2.recordsWritten)).sum = (stints.flatMap Stint.batches).flatten.length := by
  refine sum_told (·.2.recordsWritten) (·.flatten.length) rfl (fun first rest => ?_)
    (fun _ _ tells => tells.records) all
  rw [List.flatten_append, List.length_append]

theorem sum_batches (all : List.Forall₂ Tells stints done) :
    (done.map (·.2.batchesWritten)).sum = (stints.flatMap Stint.batches).countP (· ≠ []) := by
  exact sum_told (·.2.batchesWritten) (·.countP (· ≠ [])) rfl (fun _ _ => List.countP_append)
    (fun _ _ tells => tells.batches) all

theorem Tells.sum_returned {x : Stint σ} {did : List Nat × Writer σ} (tells : x.Tells did) :
    did.1.sum = did.2.syncs := by
  rw [tells.returned, tells.syncs]
  exact sum_syncsOf x.policy x.batches

theorem sum_returned (all : List.Forall₂ Tells stints done) :
    (done.map (·.1.sum)).sum = (done.map (·.2.syncs)).sum := by
  induction all with
  | nil => rfl
  | cons tells _ ih => rw [List.map_cons, List.map_cons, List.sum_cons, List.sum_cons, ih, tells.sum_returned]

theorem sum_syncs (all : List.Forall₂ Tells stints done) :
    (done.map (·.2.syncs)).sum = (batchesUnder .perBatch stints).countP (· ≠ []) +
      (batchesUnder .perRecord stints).flatten.length := by
  unfold batchesUnder
  induction all with
  | nil => rfl
  | @cons x _ _ _ tells _ ih =>
    rw [List.map_cons, List.sum_cons, ih, tells.syncs]
    cases policy : x.policy with
    | perBatch => simp [policy, Nat.add_assoc]
    | perRecord => simp [policy, Nat.add_left_comm]

end Stint

/-! The files of a volume are such files, also when a call takes only a beginning of its bytes. -/

section File

open Volume

/-- The same calls, but one takes this many bytes and another one at most. -/
def Sink.sparing (io : Sink σ) (more : Nat) : Sink σ :=
  { io with write := fun bytes s => io.write (bytes.take (more + 1)) s }

theorem Sink.Accepts.sparing {io : Sink σ} {holds : σ → Bytes → Prop} (law : io.Accepts holds)
    (more : Nat) : (io.sparing more).Accepts holds where
  write b rest s old held := by
    obtain ⟨n, t, fits, taken, grown⟩ := law.write b (rest.take more) s old held
    rw [List.length_take] at fits
    refine ⟨n, t, by omega, taken, ?_⟩
    rwa [List.take_succ_cons, List.take_take, Nat.min_eq_left (by omega), ← List.take_succ_cons] at grown
  flush := law.flush
  sync := law.sync

/-- Under a name in the directory that a way leads to stands the file, and it holds the bytes. -/
structure Stands (way place : Path) (name : String) (k : Nat) (v : Volume) (bytes : Bytes) : Prop where
  leads : v.LeadsTo way place
  file : v.entry? (place.child name) = some (.file k bytes.reverse)

variable {way place : Path} {name : String} {k : Nat} {v : Volume} {bytes : Bytes}

theorem Stands.append (stands : Stands way place name k v bytes) {w : Volume} {more : Bytes}
    (appended : v.append (.file k) more = .ok w) : Stands way place name k w (bytes ++ more) where
  leads := stands.leads.append appended
  file := by rw [List.reverse_append]; exact entry?_append_self stands.file appended

theorem Sink.accepts_ofHandle : (Sink.ofHandle (.file k)).Accepts (Stands way place name k) where
  write b rest v old stands := by
    refine ⟨rest.length, _, Nat.le_refl _, rfl, ?_⟩
    rw [List.take_succ_cons, List.take_length]
    exact stands.append rfl
  flush v old stands := ⟨v, rfl, stands⟩
  sync v old stands := ⟨v, rfl, stands⟩

theorem Stands.reach (stands : Stands way place name k v bytes) (proper : IsName name)
    (short : name.utf8ByteSize ≤ Route.maxName) (purpose : Purpose) :
    v.reach purpose (way.child name : Path) = .ok (place.child name) := by
  refine stands.leads.reach_child proper short (fun link there => ?_) purpose
  rw [stands.file] at there
  cases there

theorem Stands.read (stands : Stands way place name k v bytes) (proper : IsName name)
    (short : name.utf8ByteSize ≤ Route.maxName) : v.read (way.child name : Path) = .ok bytes := by
  unfold Volume.read openRead Volume.follow
  rw [stands.reach proper short]
  simp only [bind, Except.bind, stands.file, Source.read, List.reverse_reverse]

/-- A writer that opens a file of a volume. -/
def Stint.onFile (p : Path) (more : Nat) (policy : SyncPolicy) (batches : List (List Record)) :
    Stint Volume where
  opens v := (v.openAppend p).map fun (h, v) => ((Sink.ofHandle h).sparing more, v)
  policy := policy
  batches := batches

theorem Stint.opens_onFile (proper : IsName name) (short : name.utf8ByteSize ≤ Route.maxName)
    (more : Nat) (policy : SyncPolicy) (batches : List (List Record)) :
    (Stint.onFile (way.child name) more policy batches).Opens (Stands way place name k) := by
  intro v old stands
  have opened : v.openAppend (way.child name : Path) = .ok (.file k, v) := by
    unfold Volume.openAppend openWrite
    rw [stands.reach proper short]
    simp only [bind, Except.bind, stands.file]
    rfl
  refine ⟨_, v, ?_, Sink.accepts_ofHandle.sparing more, stands⟩
  simp only [onFile, opened, Except.map]

/-- The writers of a file leave a log that is read whole. -/
theorem recordsAt_runAll (proper : IsName name) (short : name.utf8ByteSize ≤ Route.maxName)
    (stands : Stands way place name k v []) {stints : List (Stint Volume)}
    (onFile : ∀ x ∈ stints, ∃ more policy batches, x = Stint.onFile (way.child name) more policy batches) :
    ∃ done w, Stint.runAll stints v = .ok (done, w) ∧
      recordsAt w (way.child name) = .ok (stints.flatMap Stint.batches).flatten := by
  have opens : ∀ x ∈ stints, x.Opens (Stands way place name k) := by
    intro x mem
    obtain ⟨more, policy, batches, rfl⟩ := onFile x mem
    exact Stint.opens_onFile proper short more policy batches
  obtain ⟨done, w, ran, stands, -⟩ := Stint.runAll_ok opens stands
  refine ⟨done, w, ran, ?_⟩
  have whole := records_eq_ok.mpr (items_lines (stints.flatMap Stint.batches).flatten)
  rw [recordsAt, stands.read proper short]
  simp [orFault, Except.mapError, bind, Except.bind, whole]

end File

/-- Records that are written without a failure are read back, all of them and in their order, whichever
writers write them and in whatever batches. The bytes are those that one writer leaves with one batch. -/
theorem written_is_read_back {holds : σ → Bytes → Prop} {stints : List (Stint σ)} {s : σ} {rs : List Record}
    (opens : ∀ x ∈ stints, x.Opens holds) (empty : holds s [])
    (division : (stints.flatMap Stint.batches).flatten = rs) :
    (∃ done t, Stint.runAll stints s = .ok (done, t) ∧ holds t (rs.flatMap Record.line) ∧
      List.Forall₂ Stint.Tells stints done ∧
      (done.map (·.2.recordsWritten)).sum = rs.length ∧
      (done.map (·.2.batchesWritten)).sum = (stints.flatMap Stint.batches).countP (· ≠ []) ∧
      (done.map (·.2.syncs)).sum = (Stint.batchesUnder .perBatch stints).countP (· ≠ []) +
        (Stint.batchesUnder .perRecord stints).flatten.length ∧
      (done.map (·.1.sum)).sum = (done.map (·.2.syncs)).sum) ∧
    records (rs.flatMap Record.line) = .ok rs ∧
    ∀ one : Stint σ, one.Opens holds → one.batches = [rs] →
      ∃ did t, Stint.runAll [one] s = .ok (did, t) ∧ holds t (rs.flatMap Record.line) := by
  obtain ⟨done, t, ran, whole, all⟩ := Stint.runAll_ok opens empty
  rw [division] at whole
  refine ⟨⟨done, t, ran, whole, all, ?_, Stint.sum_batches all, Stint.sum_syncs all,
    Stint.sum_returned all⟩, records_eq_ok.mpr (items_lines rs), fun one opens single => ?_⟩
  · rw [Stint.sum_records all, division]
  · have alone : ∀ x ∈ [one], x.Opens holds := List.forall_mem_singleton.mpr opens
    obtain ⟨did, u, ran, whole, -⟩ := Stint.runAll_ok alone empty
    refine ⟨did, u, ran, ?_⟩
    simpa [single] using whole

/-- Two writers of one file, the calls of which take three bytes and one at most. -/
def twoWriters : List (Stint Volume) :=
  [.onFile ["wal.log"] 2 .perBatch [[], [⟨1, 1, 0, .insert, 4, 8, 5, false⟩]],
    .onFile ["wal.log"] 0 .perRecord [[⟨1, 2, 0, .insert, 4, 8, 5, true⟩], []]]

theorem written_is_read_back_by_two :
    ∃ done t, Stint.runAll twoWriters (Volume.empty.put ["wal.log"] (.file 0 [])) = .ok (done, t) ∧
      Stands [] [] "wal.log" 0 t ([⟨1, 1, 0, .insert, 4, 8, 5, false⟩,
        ⟨1, 2, 0, .insert, 4, 8, 5, true⟩].flatMap Record.line) ∧
      (done.map (·.2.syncs)).sum = 2 := by
  have proper : Volume.IsName "wal.log" := ⟨by decide, by decide⟩
  have short : "wal.log".utf8ByteSize ≤ Route.maxName := by decide
  have opens : ∀ x ∈ twoWriters, x.Opens (Stands [] [] "wal.log" 0) := by
    simp only [twoWriters, List.forall_mem_cons, List.not_mem_nil, false_implies, implies_true, and_true]
    exact ⟨Stint.opens_onFile proper short _ _ _, Stint.opens_onFile proper short _ _ _⟩
  have empty : Stands [] [] "wal.log" 0 (Volume.empty.put ["wal.log"] (.file 0 [])) [] :=
    ⟨⟨40, .here _ _⟩, by decide⟩
  obtain ⟨⟨done, t, ran, whole, -, -, -, syncs, -⟩, -⟩ := written_is_read_back opens empty rfl
  exact ⟨done, t, ran, whole, syncs⟩

end PageJournal.Log
