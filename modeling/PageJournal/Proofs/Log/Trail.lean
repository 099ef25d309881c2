import Mathlib.Data.List.Induction
import PageJournal.Proofs.Log.Accepted

/-! The drains of a log writer, told by what each left in the log: a beginning of the lines of its
batch, behind whatever stood there. A drain that failed is followed by one of a batch that begins
with the same records. -/
namespace PageJournal.Log

variable {σ : Type}

/-- Drains sorted by what became of their batch: the attempts of every batch that went through, the
successful one last, and the attempts since. -/
structure Sifted (σ : Type) where
  settled : List (List (Drain σ))
  pending : List (Drain σ)

def Sifted.next (s : Sifted σ) (d : Drain σ) : Sifted σ :=
  if d.succeeded then ⟨s.settled ++ [s.pending ++ [d]], []⟩ else ⟨s.settled, s.pending ++ [d]⟩

def sift (drains : List (Drain σ)) : Sifted σ := drains.foldl Sifted.next ⟨[], []⟩

/-- The attempts of each batch that went through. -/
def attempts (drains : List (Drain σ)) : List (List (Drain σ)) := (sift drains).settled

/-- The failed attempts since the last batch that went through. -/
def pending (drains : List (Drain σ)) : List (Drain σ) := (sift drains).pending

theorem sift_concat (drains : List (Drain σ)) (d : Drain σ) :
    sift (drains ++ [d]) = (sift drains).next d := List.foldl_append

theorem pending_succeeded (drains : List (Drain σ)) {d : Drain σ} (ok : d.succeeded = true) :
    pending (drains ++ [d]) = [] := by
  rw [pending, sift_concat, Sifted.next, if_pos ok]

theorem pending_failed (drains : List (Drain σ)) {d : Drain σ} (failed : d.succeeded = false) :
    pending (drains ++ [d]) = pending drains ++ [d] := by
  rw [pending, sift_concat, Sifted.next, failed]
  rfl

theorem attempts_succeeded (drains : List (Drain σ)) {d : Drain σ} (ok : d.succeeded = true) :
    attempts (drains ++ [d]) = attempts drains ++ [pending drains ++ [d]] := by
  rw [attempts, sift_concat, Sifted.next, if_pos ok]
  rfl

theorem attempts_failed (drains : List (Drain σ)) {d : Drain σ} (failed : d.succeeded = false) :
    attempts (drains ++ [d]) = attempts drains := by
  rw [attempts, sift_concat, Sifted.next, failed]
  rfl

theorem mem_pending {drains : List (Drain σ)} {t : Drain σ} (mem : t ∈ pending drains) :
    t ∈ drains := by
  induction drains using List.reverseRecOn with
  | nil => cases mem
  | append_singleton rest d ih =>
    cases ok : d.succeeded with
    | true =>
      rw [pending_succeeded rest ok] at mem
      cases mem
    | false =>
      rw [pending_failed rest ok] at mem
      rcases List.mem_append.mp mem with old | new
      · exact List.mem_append_left _ (ih old)
      · exact List.mem_append_right _ new

/-- The attempts are the drains, in their order. -/
theorem flatten_attempts (drains : List (Drain σ)) :
    (attempts drains).flatten ++ pending drains = drains := by
  induction drains using List.reverseRecOn with
  | nil => rfl
  | append_singleton rest d ih =>
    cases ok : d.succeeded with
    | true =>
      rw [attempts_succeeded rest ok, pending_succeeded rest ok, List.flatten_append,
        List.append_nil, List.flatten_singleton, ← List.append_assoc, ih]
    | false =>
      rw [attempts_failed rest ok, pending_failed rest ok, ← List.append_assoc, ih]

/-- Drains in their order, and the log that they left behind. -/
inductive Trail (content : σ → Bytes) (first : Bytes) : List (Drain σ) → Bytes → Prop where
  | start : Trail content first [] first
  | more {drains : List (Drain σ)} {log taken : Bytes} {d : Drain σ}
      (earlier : Trail content first drains log)
      (before : content d.before = log)
      (after : content d.after = log ++ taken)
      (part : taken <+: d.batch.flatMap Record.line)
      (whole : d.succeeded = true → taken = d.batch.flatMap Record.line)
      (nonempty : d.batch ≠ [])
      (again : ∀ t ∈ pending drains, t.batch <+: d.batch) :
    Trail content first (drains ++ [d]) (log ++ taken)

namespace Loop

/-- The trail of a loop, and how far the batch in its hand got. -/
def Traced (content : σ → Bytes) (first : Bytes) (l : Loop σ) : Prop :=
  match l.hand with
  | .empty =>
    Trail content first l.drains (content l.flusher.writer.sink) ∧
      ∀ t ∈ pending l.drains, t.batch <+: l.flusher.buffer.records
  | .writing batch left =>
    Trail content first l.drains (content l.since) ∧
      (∃ taken, content l.flusher.writer.sink = content l.since ++ taken ∧
        taken ++ left.flatten = batch.flatMap Record.line) ∧
      batch ≠ [] ∧ ∀ t ∈ pending l.drains, t.batch <+: batch
  | .failed batch _ =>
    Trail content first l.drains (content l.since) ∧
      (∃ taken, content l.flusher.writer.sink = content l.since ++ taken ∧
        taken <+: batch.flatMap Record.line) ∧
      batch ≠ [] ∧ ∀ t ∈ pending l.drains, t.batch <+: batch

variable {io : Sink σ} {content : σ → Bytes} {first : Bytes}

theorem traced_step (law : io.Appends content) {l : Loop σ} (traced : l.Traced content first)
    (s : Step) : (l.step io s).Traced content first := by
  have move := moves io l s
  generalize l.step io s = after at move ⊢
  cases move with
  | add r =>
    obtain ⟨f, hand, since, drains⟩ := l
    cases hand with
    | empty =>
      refine ⟨traced.1, fun t mem => ?_⟩
      rw [Buffer.records_add]
      exact (traced.2 t mem).trans (List.prefix_append _ _)
    | writing batch left => exact traced
    | failed batch cause => exact traced
  | take silent free waiting =>
    simp only [Traced, free] at traced
    obtain ⟨trail, again⟩ := traced
    refine ⟨trail, ⟨[], (List.append_nil _).symm, ?_⟩, waiting, again⟩
    exact flatten_pieces _ _
  | @written _ batch piece left writer silent holds wrote =>
    simp only [Traced, holds] at traced
    obtain ⟨trail, ⟨taken, grown, rest⟩, nonempty, again⟩ := traced
    obtain ⟨more, -, later, whole⟩ := content_writePiece law piece l.flusher.writer
    rw [wrote] at later whole
    refine ⟨trail, ⟨taken ++ more, ?_, ?_⟩, nonempty, again⟩
    · rw [← List.append_assoc, ← grown]
      exact later
    · rw [whole rfl, List.append_assoc, ← List.flatten_cons]
      exact rest
  | @refused _ batch piece left cause writer silent holds wrote =>
    simp only [Traced, holds] at traced
    obtain ⟨trail, ⟨taken, grown, rest⟩, nonempty, again⟩ := traced
    obtain ⟨more, part, later, -⟩ := content_writePiece law piece l.flusher.writer
    rw [wrote] at later
    refine ⟨trail, ⟨taken ++ more, ?_, ?_⟩, nonempty, again⟩
    · rw [← List.append_assoc, ← grown]
      exact later
    · rw [← rest, List.flatten_cons]
      exact (List.prefix_append_right_inj taken).mpr (part.trans (List.prefix_append _ _))
  | @acknowledge _ batch silent holds =>
    simp only [Traced, holds] at traced
    obtain ⟨trail, ⟨taken, grown, rest⟩, nonempty, again⟩ := traced
    rw [List.flatten_nil, List.append_nil] at rest
    have sink : (l.flusher.accept batch).writer.sink = l.flusher.writer.sink := rfl
    refine ⟨?_, fun t mem => ?_⟩
    · simp only [ended, sink, grown]
      exact .more trail rfl grown (rest ▸ List.prefix_rfl) (fun _ => rest) nonempty again
    · simp only [ended, pending_succeeded _ (d := ⟨batch, _, _, .ok _⟩) rfl] at mem
      cases mem
  | @giveBack _ batch cause silent holds =>
    simp only [Traced, holds] at traced
    obtain ⟨trail, ⟨taken, grown, part⟩, nonempty, again⟩ := traced
    have sink : (l.flusher.putBack batch).writer.sink = l.flusher.writer.sink := rfl
    refine ⟨?_, fun t mem => ?_⟩
    · simp only [ended, sink, grown]
      refine .more trail rfl grown part (fun done => ?_) nonempty again
      cases done
    · simp only [ended, pending_failed _ (d := ⟨batch, _, _, .error _⟩) rfl] at mem
      have front : batch <+: batch ++ l.flusher.buffer.records := List.prefix_append _ _
      rcases List.mem_append.mp mem with old | new
      · exact (again t old).trans front
      · rw [List.mem_singleton.mp new]
        exact front
  | nothing silent => exact traced

theorem traced_run (law : io.Appends content) {l : Loop σ} (traced : l.Traced content first)
    (steps : List Step) : (l.run io steps).Traced content first := by
  induction steps generalizing l with
  | nil => exact traced
  | cons s rest ih => exact ih (traced_step law traced s)

theorem traced_start (content : σ → Bytes) (f : Flusher σ) :
    (start f).Traced content (content f.writer.sink) := ⟨.start, nofun⟩

end Loop

end PageJournal.Log
