import PageJournal.Proofs.Log.Rounds

/-! What a sink has accepted. A piece that is written leaves a beginning of itself behind, the whole
of it if the write succeeds; so does a batch. -/
namespace PageJournal.Log

variable {σ : Type}

/-- What a view of the sink shows grows by exactly the bytes that the calls take. -/
structure Sink.Appends (io : Sink σ) (content : σ → Bytes) : Prop where
  taken : ∀ bytes s n, (io.write bytes s).1 = .ok n →
    content (io.write bytes s).2 = content s ++ bytes.take n
  refused : ∀ bytes s cause, (io.write bytes s).1 = .error cause →
    content (io.write bytes s).2 = content s
  flush : ∀ s, content (io.flush s).2 = content s
  sync : ∀ s, content (io.sync s).2 = content s

/-- The same sink beside a copy of every byte that it took. -/
def Sink.recorded (io : Sink σ) : Sink (Bytes × σ) where
  write bytes s :=
    match io.write bytes s.2 with
    | (.ok n, t) => (.ok n, (s.1 ++ bytes.take n, t))
    | (.error cause, t) => (.error cause, (s.1, t))
  flush s := ((io.flush s.2).1, (s.1, (io.flush s.2).2))
  sync s := ((io.sync s.2).1, (s.1, (io.sync s.2).2))

theorem Sink.appends_recorded (io : Sink σ) : io.recorded.Appends Prod.fst where
  taken bytes s n ok := by
    simp only [recorded] at ok ⊢
    split at ok
    · cases ok
      rfl
    · cases ok
  refused bytes s cause failed := by
    simp only [recorded] at failed ⊢
    split at failed
    · cases failed
    · rfl
  flush _ := rfl
  sync _ := rfl

theorem MemoryLog.appends_sink : sink.Appends bytes where
  taken bytes m n ok := by
    simp only [sink, write] at ok ⊢
    split at ok
    · cases ok
    · cases ok
      rw [if_neg ‹_›]
  refused bytes m cause failed := by
    simp only [sink, write] at failed ⊢
    split at failed
    · rw [if_pos ‹_›]
    · cases failed
  flush m := by
    simp only [sink, flush]
    split <;> rfl
  sync m := by
    simp only [sink, sync]
    split <;> rfl

/-- The same writer with a copy of what its sink takes, nothing so far. -/
def Flusher.recorded (f : Flusher σ) : Flusher (Bytes × σ) where
  writer := f.writer.onto ([], f.writer.sink)
  buffer := f.buffer
  sequence := f.sequence
  counters := f.counters
  events := f.events

section Content

variable {io : Sink σ} {content : σ → Bytes}

theorem content_writeAll (law : io.Appends content) (bytes : Bytes) (s : σ) :
    ∃ taken, taken <+: bytes ∧ content (io.writeAll bytes s).2 = content s ++ taken ∧
      ((io.writeAll bytes s).1 = .ok () → taken = bytes) := by
  fun_induction Sink.writeAll io bytes s with
  | case1 s => exact ⟨[], List.prefix_rfl, (List.append_nil _).symm, fun _ => rfl⟩
  | case2 b rest s cause after wrote =>
    have same := law.refused (b :: rest) s cause (by rw [wrote])
    rw [wrote] at same
    exact ⟨[], List.nil_prefix, same.trans (List.append_nil _).symm, nofun⟩
  | case3 b rest s after wrote =>
    have same := law.taken (b :: rest) s 0 (by rw [wrote])
    rw [wrote] at same
    exact ⟨[], List.nil_prefix, same, nofun⟩
  | case4 b rest s n after wrote ih =>
    have grown := law.taken (b :: rest) s (n + 1) (by rw [wrote])
    rw [wrote, List.take_succ_cons] at grown
    obtain ⟨taken, part, later, whole⟩ := ih
    refine ⟨b :: (rest.take n ++ taken), ?_, ?_, fun ok => ?_⟩
    · rw [List.cons_prefix_cons]
      refine ⟨rfl, ?_⟩
      conv => rhs; rw [← List.take_append_drop n rest]
      exact (List.prefix_append_right_inj _).mpr part
    · rw [later, grown]
      simp
    · rw [whole ok, List.take_append_drop]

theorem content_force (law : io.Appends content) (w : Writer σ) :
    content (w.force io).2.sink = content w.sink := by
  have flushed := law.flush w.sink
  rw [Writer.force]
  split
  · next failed =>
    rw [failed] at flushed
    exact flushed
  · next s done =>
    rw [done] at flushed
    have synced := law.sync s
    split
    · next failed =>
      rw [failed] at synced
      exact synced.trans flushed
    · next done =>
      rw [done] at synced
      exact synced.trans flushed

/-- A piece leaves a beginning of itself behind, and the whole of it unless the write fails. -/
theorem content_writePiece (law : io.Appends content) (piece : Bytes) (w : Writer σ) :
    ∃ taken, taken <+: piece ∧ content (w.writePiece io piece).2.sink = content w.sink ++ taken ∧
      ((w.writePiece io piece).1 = .ok () → taken = piece) := by
  obtain ⟨taken, part, grown, whole⟩ := content_writeAll law piece w.sink
  refine ⟨taken, part, ?_⟩
  rw [Writer.writePiece]
  split
  · next failed =>
    rw [failed] at grown
    refine ⟨grown, fun ok => ?_⟩
    cases ok
  · next done =>
    rw [done] at grown whole
    exact ⟨(content_force law _).trans grown, fun _ => whole rfl⟩

end Content

/-! The copy beside a sink changes nothing: forgetting it gives the run without it. -/

section Forget

/-- The state of a sink without the copy. -/
def Writer.forget (w : Writer (Bytes × σ)) : Writer σ := w.onto w.sink.2

def Flusher.forget (f : Flusher (Bytes × σ)) : Flusher σ where
  writer := f.writer.forget
  buffer := f.buffer
  sequence := f.sequence
  counters := f.counters
  events := f.events

def Drain.forget (d : Drain (Bytes × σ)) : Drain σ := ⟨d.batch, d.before.2, d.after.2, d.outcome⟩

def Loop.forget (l : Loop (Bytes × σ)) : Loop σ :=
  ⟨l.flusher.forget, l.hand, l.since.2, l.drains.map Drain.forget⟩

theorem writeAll_copy (io : Sink σ) (bytes : Bytes) (s : σ) (copy : Bytes) :
    (io.recorded.writeAll bytes (copy, s)).1 = (io.writeAll bytes s).1 ∧
      (io.recorded.writeAll bytes (copy, s)).2.2 = (io.writeAll bytes s).2 := by
  fun_induction Sink.writeAll io bytes s generalizing copy with
  | case1 s => simp [Sink.writeAll]
  | case2 b rest s cause after wrote => simp [Sink.writeAll, Sink.recorded, wrote]
  | case3 b rest s after wrote => simp [Sink.writeAll, Sink.recorded, wrote]
  | case4 b rest s n after wrote ih =>
    rw [Sink.writeAll]
    simp only [Sink.recorded, wrote]
    exact ih _

theorem writePiece_recorded (io : Sink σ) (piece : Bytes) (w : Writer (Bytes × σ)) :
    (w.writePiece io.recorded piece).1 = (w.forget.writePiece io piece).1 ∧
      (w.writePiece io.recorded piece).2.forget = (w.forget.writePiece io piece).2 := by
  obtain ⟨⟨copy, s⟩, policy, written, batches, syncs⟩ := w
  obtain ⟨result, state⟩ := writeAll_copy io piece s copy
  simp only [Writer.writePiece, Writer.forget, Writer.onto]
  rcases copied : io.recorded.writeAll piece (copy, s) with ⟨r, copy', t⟩
  rcases alone : io.writeAll piece s with ⟨r', t'⟩
  rw [copied, alone] at result state
  cases result
  cases state
  cases r with
  | error cause => exact ⟨rfl, rfl⟩
  | ok _ =>
    simp only [Writer.force, Sink.recorded]
    rcases io.flush t with ⟨cause | _, u⟩
    · exact ⟨rfl, rfl⟩
    · simp only
      rcases io.sync u with ⟨cause | _, v⟩
      · exact ⟨rfl, rfl⟩
      · exact ⟨rfl, rfl⟩

theorem Loop.forget_step (io : Sink σ) (l : Loop (Bytes × σ)) (s : Step) :
    (l.step io.recorded s).forget = l.forget.step io s := by
  obtain ⟨f, hand, since, drains⟩ := l
  cases s with
  | add r => rfl
  | swap =>
    by_cases free : hand = .empty
    · by_cases none : f.buffer.records.isEmpty = true
      · simp [step, forget, swap, Flusher.swap, Buffer.swap, Flusher.forget, free, none]
      · simp [step, forget, swap, Flusher.swap, Buffer.swap, Flusher.forget, free, none]
        exact ⟨rfl, rfl⟩
    · simp [step, forget, free]
  | write =>
    cases hand with
    | empty => rfl
    | failed batch cause => rfl
    | writing batch left =>
      cases left with
      | nil => rfl
      | cons piece left =>
        obtain ⟨result, state⟩ := writePiece_recorded io piece f.writer
        have writer : f.forget.writer = f.writer.forget := rfl
        simp only [step, Flusher.writeNext, forget, writer]
        rcases copied : f.writer.writePiece io.recorded piece with ⟨r, w⟩
        rcases alone : f.writer.forget.writePiece io piece with ⟨r', w'⟩
        rw [copied, alone] at result state
        cases result
        cases state
        cases r <;> rfl
  | settle =>
    cases hand with
    | empty => rfl
    | writing batch left =>
      cases left with
      | nil =>
        simp only [step, forget, ended, Drain.forget, List.map_append, List.map_cons, List.map_nil]
        rfl
      | cons piece left => rfl
    | failed batch cause =>
      simp only [step, forget, ended, Drain.forget, List.map_append, List.map_cons, List.map_nil]
      rfl

theorem Loop.forget_run (io : Sink σ) (f : Flusher σ) (steps : List Step) :
    (run io.recorded (start f.recorded) steps).forget = run io (start f) steps := by
  suffices ∀ l : Loop (Bytes × σ), (run io.recorded l steps).forget = run io l.forget steps from
    this (start f.recorded)
  intro l
  induction steps generalizing l with
  | nil => rfl
  | cons s rest ih =>
    rw [run, run, List.foldl_cons, List.foldl_cons, ← forget_step]
    exact ih _

end Forget

end PageJournal.Log
