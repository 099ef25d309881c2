import Mathlib.Data.List.Perm.Subperm
import PageJournal.Proofs.Log.Torn

/-! Which retried batches are read back whole. A retry writes its batch behind whatever the failed
attempts left, so the first record of the batch is lost unless some attempt begins a line of its own
and gets that line out; and the batch is read in its order unless an attempt before that one already
got out later records. -/
namespace PageJournal.Log

variable {σ : Type}

section Attempts

variable (content : σ → Bytes)

/-- The drain began at the beginning of a line. -/
def Drain.Aligned (d : Drain σ) : Prop := Closed (content d.before)

instance (d : Drain σ) : Decidable (d.Aligned content) := by
  unfold Drain.Aligned
  infer_instance

/-- How many lines the drain got out whole. -/
def Drain.whole (d : Drain σ) : Nat :=
  ((content d.after).drop (content d.before).length).count lineFeed

/-- What the drain adds to what is read. -/
def Drain.yields (d : Drain σ) : List Record :=
  yield (decide (d.Aligned content)) (d.batch.take (d.whole content))

/-- Some attempt begins a line of its own and gets the first record out, and none before it gets out
more than one line. -/
def Lands (tries : List (Drain σ)) : Prop :=
  ∃ before t after, tries = before ++ t :: after ∧ t.Aligned content ∧ 1 ≤ t.whole content ∧
    ∀ b ∈ before, b.whole content ≤ 1

theorem lands_cons (t : Drain σ) (rest : List (Drain σ)) :
    Lands content (t :: rest) ↔
      (t.Aligned content ∧ 1 ≤ t.whole content) ∨ (t.whole content ≤ 1 ∧ Lands content rest) := by
  constructor
  · rintro ⟨before, x, after, same, aligned, some, early⟩
    cases before with
    | nil =>
      cases same
      exact .inl ⟨aligned, some⟩
    | cons b before =>
      cases same
      exact .inr ⟨early _ List.mem_cons_self, before, x, after, rfl, aligned, some,
        fun b mem => early b (List.mem_cons_of_mem _ mem)⟩
  · rintro (⟨aligned, some⟩ | ⟨small, before, x, after, rfl, aligned, some, early⟩)
    · exact ⟨[], t, rest, rfl, aligned, some, nofun⟩
    · refine ⟨t :: before, x, after, rfl, aligned, some, fun b mem => ?_⟩
      rcases List.mem_cons.mp mem with rfl | mem
      · exact small
      · exact early b mem

instance decidableLands : (tries : List (Drain σ)) → Decidable (Lands content tries)
  | [] => .isFalse fun ⟨before, _, _, same, _⟩ => by cases before <;> cases same
  | t :: rest =>
    have := decidableLands rest
    decidable_of_iff _ (lands_cons content t rest).symm

/-- The attempts of one batch: each is of a beginning of it, and the last writes all of it. -/
structure Retried (tries : List (Drain σ)) (batch : List Record) : Prop where
  nonempty : batch ≠ []
  part : ∀ t ∈ tries, t.batch <+: batch
  few : ∀ t ∈ tries, t.whole content ≤ t.batch.length
  last : ∃ t ∈ tries, t.whole content = batch.length

end Attempts

variable {content : σ → Bytes}

theorem yields_eq {t : Drain σ} {batch : List Record} (part : t.batch <+: batch)
    (few : t.whole content ≤ t.batch.length) :
    t.yields content = yield (decide (t.Aligned content)) (batch.take (t.whole content)) := by
  obtain ⟨rest, rfl⟩ := part
  rw [Drain.yields, List.take_append_of_le_length few]

theorem yields_subset {t : Drain σ} {batch : List Record} (part : t.batch <+: batch) :
    t.yields content ⊆ batch := by
  intro r mem
  rw [Drain.yields, yield] at mem
  split at mem
  · exact part.subset (List.mem_of_mem_take mem)
  · exact part.subset (List.mem_of_mem_take (List.mem_of_mem_drop mem))

section Batch

variable {batch : List Record} (distinct : (batch.map Record.lsn).Nodup)

include distinct

/-- Reading a part of the batch again adds what was not read before. -/
theorem takeNew_part {k m j : Nat} (old : j ≤ k) :
    ((batch.take m).drop j).foldl takeNew (batch.take k) = batch.take (max k m) := by
  have known : ∀ r ∈ (batch.take (min k m)).drop j, r.lsn ∈ (batch.take k).map Record.lsn := by
    intro r mem
    have there := List.mem_of_mem_drop mem
    rw [Nat.min_comm, ← List.take_take] at there
    exact List.mem_map_of_mem (List.mem_of_mem_take there)
  rcases Nat.le_total m k with le | le
  · rw [Nat.max_eq_left le]
    rw [Nat.min_eq_right le] at known
    exact foldl_takeNew_old known
  · rw [Nat.min_eq_left le] at known
    have grown : batch.take m = batch.take k ++ (batch.take m).drop k := by
      conv => lhs; rw [← List.take_append_drop k (batch.take m)]
      rw [List.take_take, Nat.min_eq_left le]
    have split : (batch.take m).drop j = (batch.take k).drop j ++ (batch.take m).drop k := by
      rcases Nat.le_total k batch.length with inside | beyond
      · have enough : j ≤ (batch.take k).length := by
          rw [List.length_take]
          omega
        rw [← List.drop_append_of_le_length enough, ← grown]
      · rw [List.take_of_length_le beyond, List.take_of_length_le (by omega),
          List.drop_eq_nil_of_le beyond, List.append_nil]
    have new : ((batch.take k ++ (batch.take m).drop k).map Record.lsn).Nodup := by
      rw [← grown]
      exact distinct.sublist ((List.take_sublist m batch).map _)
    rw [split, List.foldl_append, foldl_takeNew_old known, foldl_takeNew_new new, ← grown,
      Nat.max_eq_right le]

theorem takeNew_yield {k m : Nat} {aligned : Bool} (old : aligned = true ∨ 1 ≤ k) :
    (yield aligned (batch.take m)).foldl takeNew (batch.take k) = batch.take (max k m) := by
  rcases old with rfl | some
  · exact takeNew_part distinct (j := 0) (Nat.zero_le k)
  · cases aligned with
    | true => exact takeNew_part distinct (j := 0) (Nat.zero_le k)
    | false => exact takeNew_part distinct some

/-- Attempts that get out one line at most add the first record at most. -/
theorem firsts_early {tries : List (Drain σ)} (part : ∀ t ∈ tries, t.batch <+: batch)
    (few : ∀ t ∈ tries, t.whole content ≤ t.batch.length)
    (early : ∀ t ∈ tries, t.whole content ≤ 1) {k : Nat} (one : k ≤ 1) :
    ∃ k' ≤ 1, (tries.flatMap (Drain.yields content)).foldl takeNew (batch.take k) =
      batch.take k' := by
  induction tries generalizing k with
  | nil => exact ⟨k, one, rfl⟩
  | cons t rest ih =>
    have again := @ih (fun x mem => part x (List.mem_cons_of_mem t mem))
      (fun x mem => few x (List.mem_cons_of_mem t mem))
      (fun x mem => early x (List.mem_cons_of_mem t mem))
    have small := early t List.mem_cons_self
    rw [List.flatMap_cons, List.foldl_append,
      yields_eq (part t List.mem_cons_self) (few t List.mem_cons_self)]
    by_cases useful : t.Aligned content
    · rw [takeNew_yield distinct (.inl (decide_eq_true useful))]
      exact again (by omega)
    · have nothing : yield (decide (t.Aligned content)) (batch.take (t.whole content)) = [] := by
        rw [decide_eq_false useful]
        refine List.drop_eq_nil_of_le ?_
        rw [List.length_take]
        omega
      rw [nothing]
      exact again one

/-- Once the first record is read, every attempt goes on from where the others got. -/
theorem firsts_late {tries : List (Drain σ)} (part : ∀ t ∈ tries, t.batch <+: batch)
    (few : ∀ t ∈ tries, t.whole content ≤ t.batch.length) {k : Nat} (some : 1 ≤ k) :
    ∃ k', k ≤ k' ∧ (∀ t ∈ tries, t.whole content ≤ k') ∧
      (tries.flatMap (Drain.yields content)).foldl takeNew (batch.take k) = batch.take k' := by
  induction tries generalizing k with
  | nil => exact ⟨k, Nat.le_refl k, nofun, rfl⟩
  | cons t rest ih =>
    rw [List.flatMap_cons, List.foldl_append,
      yields_eq (part t List.mem_cons_self) (few t List.mem_cons_self),
      takeNew_yield distinct (.inr some)]
    obtain ⟨k', le, reached, same⟩ := @ih (fun x mem => part x (List.mem_cons_of_mem t mem))
      (fun x mem => few x (List.mem_cons_of_mem t mem)) (max k (t.whole content)) (by omega)
    refine ⟨k', by omega, fun x mem => ?_, same⟩
    rcases List.mem_cons.mp mem with rfl | mem
    · omega
    · exact reached x mem

theorem firsts_of_lands {tries : List (Drain σ)} (retried : Retried content tries batch)
    (lands : Lands content tries) : firsts (tries.flatMap (Drain.yields content)) = batch := by
  obtain ⟨last, there, complete⟩ := retried.last
  obtain ⟨before, t, after, rfl, aligned, some, early⟩ := lands
  have inBefore : ∀ {x}, x ∈ before → x ∈ before ++ t :: after := List.mem_append_left _
  have inAfter : ∀ {x}, x ∈ after → x ∈ before ++ t :: after :=
    fun mem => List.mem_append_right _ (List.mem_cons_of_mem t mem)
  have itself : t ∈ before ++ t :: after := List.mem_append_right _ List.mem_cons_self
  obtain ⟨k, one, first⟩ := firsts_early distinct
    (fun x mem => retried.part x (inBefore mem)) (fun x mem => retried.few x (inBefore mem)) early
    (Nat.zero_le 1)
  obtain ⟨k', le, reached, rest⟩ := firsts_late distinct
    (fun x mem => retried.part x (inAfter mem)) (fun x mem => retried.few x (inAfter mem))
    (k := max k (t.whole content)) (by omega)
  have all : batch.length ≤ k' := by
    rw [← complete]
    rcases List.mem_append.mp there with mem | mem
    · have := early last mem
      omega
    · rcases List.mem_cons.mp mem with rfl | mem
      · omega
      · exact reached last mem
  rw [List.take_zero] at first
  rw [firsts, List.flatMap_append, List.flatMap_cons, List.foldl_append, List.foldl_append, first,
    yields_eq (retried.part t itself) (retried.few t itself),
    takeNew_yield distinct (.inl (decide_eq_true aligned)), rest, List.take_of_length_le all]

/-- The first record that is read of a batch is its first, so some attempt got it out. -/
theorem lands_of_head {tries : List (Drain σ)} (nonempty : batch ≠ [])
    (part : ∀ t ∈ tries, t.batch <+: batch)
    (few : ∀ t ∈ tries, t.whole content ≤ t.batch.length)
    (head : (tries.flatMap (Drain.yields content)).head? = batch.head?) : Lands content tries := by
  induction tries with
  | nil =>
    cases batch with
    | nil => exact absurd rfl nonempty
    | cons h rest => cases head
  | cons t rest ih =>
    have own := yields_eq (part t List.mem_cons_self) (few t List.mem_cons_self)
    have short := (part t List.mem_cons_self).length_le
    have bound := few t List.mem_cons_self
    rw [List.flatMap_cons] at head
    cases read : t.yields content with
    | nil =>
      have small : t.whole content ≤ 1 := by
        have length := congrArg List.length (own.symm.trans read)
        rw [yield] at length
        split at length
        · rw [List.length_take, List.length_nil] at length
          omega
        · rw [List.length_drop, List.length_take, List.length_nil] at length
          omega
      rw [read] at head
      have later := ih (fun x mem => part x (List.mem_cons_of_mem t mem))
        (fun x mem => few x (List.mem_cons_of_mem t mem)) head
      exact (lands_cons content t rest).mpr (.inr ⟨small, later⟩)
    | cons r others =>
      rw [read] at head
      cases batch with
      | nil => exact absurd rfl nonempty
      | cons h more =>
        have same : r = h := Option.some.inj head
        rw [own, yield] at read
        split at read
        · next aligned =>
          refine ⟨[], t, rest, rfl, of_decide_eq_true aligned, ?_,
            fun _ mem => absurd mem List.not_mem_nil⟩
          cases whole : t.whole content with
          | zero =>
            rw [whole] at read
            cases read
          | succ n => exact Nat.le_add_left 1 n
        · -- what is read begins behind the first record, which does not occur again
          have later : r ∈ more := by
            have mem : r ∈ ((h :: more).take (t.whole content)).drop 1 := by
              rw [read]
              exact List.mem_cons_self
            cases whole : t.whole content with
            | zero =>
              rw [whole] at mem
              cases mem
            | succ n =>
              rw [whole, List.take_succ_cons] at mem
              exact List.mem_of_mem_take mem
          rw [List.map_cons, List.nodup_cons] at distinct
          exact absurd (List.mem_map_of_mem (same ▸ later)) distinct.1

/-- A retried batch is read back whole and in its order exactly if its first record lands. -/
theorem firsts_retried {tries : List (Drain σ)} (retried : Retried content tries batch) :
    firsts (tries.flatMap (Drain.yields content)) = batch ↔ Lands content tries := by
  constructor
  · intro same
    refine lands_of_head distinct retried.nonempty retried.part retried.few ?_
    rw [← head?_firsts, same]
  · exact firsts_of_lands distinct retried

end Batch

/-- What is read of the attempts of a batch is of the batch. -/
theorem retried_subset {tries : List (Drain σ)} {batch : List Record}
    (retried : Retried content tries batch) :
    tries.flatMap (Drain.yields content) ⊆ batch := by
  intro r mem
  obtain ⟨t, there, read⟩ := List.mem_flatMap.mp mem
  exact yields_subset (retried.part t there) read

theorem length_firsts_le {rs batch : List Record} (subset : rs ⊆ batch) :
    (firsts rs).length ≤ batch.length := by
  have distinct : (firsts rs).Nodup := (nodup_firsts rs).of_map _
  exact (List.subperm_of_subset distinct fun r mem => subset (mem_of_mem_firsts mem)).length_le

/-- Batches that were retried one after another: nothing but their records is read, and all of it is
in place exactly if the first record of every batch lands. -/
theorem firsts_batches {groups : List (List (Drain σ))} {batches : List (List Record)}
    (retried : List.Forall₂ (Retried content) groups batches)
    (distinct : (batches.flatten.map Record.lsn).Nodup) :
    (firsts (groups.flatten.flatMap (Drain.yields content))).length ≤ batches.flatten.length ∧
      (firsts (groups.flatten.flatMap (Drain.yields content)) = batches.flatten ↔
        ∀ tries ∈ groups, Lands content tries) := by
  have subset : ∀ {groups : List (List (Drain σ))} {batches : List (List Record)},
      List.Forall₂ (Retried content) groups batches →
      groups.flatten.flatMap (Drain.yields content) ⊆ batches.flatten := by
    intro groups batches retried
    induction retried with
    | nil => exact List.Subset.refl _
    | cons first _ ih =>
      rw [List.flatten_cons, List.flatten_cons, List.flatMap_append]
      exact List.append_subset.mpr
        ⟨List.subset_append_of_subset_left _ (retried_subset first),
          List.subset_append_of_subset_right _ ih⟩
  induction retried with
  | nil => exact ⟨Nat.le_refl _, iff_of_true rfl nofun⟩
  | @cons tries batch groups batches first others ih =>
    rw [List.flatten_cons, List.map_append, List.nodup_append] at distinct
    obtain ⟨own, rest, apart⟩ := distinct
    obtain ⟨few, same⟩ := ih rest
    have new : ∀ r ∈ groups.flatten.flatMap (Drain.yields content),
        r.lsn ∉ (tries.flatMap (Drain.yields content)).map Record.lsn := by
      intro r mem old
      obtain ⟨x, there, eq⟩ := List.mem_map.mp old
      exact apart _ (List.mem_map_of_mem (retried_subset first there)) _
        (List.mem_map_of_mem (subset others mem)) eq
    have bound := length_firsts_le (retried_subset first)
    rw [List.flatten_cons, List.flatten_cons, List.flatMap_append, firsts_append_of_new new]
    constructor
    · rw [List.length_append, List.length_append]
      omega
    · rw [List.forall_mem_cons, ← same, ← firsts_retried own first]
      constructor
      · intro eq
        have lengths := congrArg List.length eq
        rw [List.length_append, List.length_append] at lengths
        exact List.append_inj eq (by omega)
      · rintro ⟨here, there⟩
        rw [here, there]

/-- What a trail tells of the log. -/
structure Told (content : σ → Bytes) (drains : List (Drain σ)) (log : Bytes) : Prop where
  torn : ∃ front tail, Torn front tail log ∧
    found front = drains.flatMap (Drain.yields content)
  few : ∀ d ∈ drains, d.whole content ≤ d.batch.length
  retried : List.Forall₂ (Retried content) (attempts drains) (Loop.batches drains)
  closed : pending drains = [] → Closed log

theorem closed_behind_lines {rs : List Record} (nonempty : rs ≠ []) (front : Bytes) :
    Closed (front ++ rs.flatMap Record.line) := by
  rcases List.eq_nil_or_concat rs with rfl | ⟨init, r, rfl⟩
  · exact absurd rfl nonempty
  · have last : (init.concat r).flatMap Record.line = init.flatMap Record.line ++ r.line := by simp
    rw [last, Record.line_eq, ← List.append_assoc, ← List.append_assoc]
    exact closed_concat _

theorem told_trail {drains : List (Drain σ)} {log : Bytes} (trail : Trail content [] drains log) :
    Told content drains log := by
  induction trail with
  | start =>
    exact ⟨⟨[], [], ⟨.inl rfl, nofun, rfl⟩, rfl⟩, nofun, .nil, fun _ => .inl rfl⟩
  | @more drains log taken d earlier before after part whole nonempty again ih =>
    have lines : d.whole content = taken.count lineFeed := by
      rw [Drain.whole, before, after, List.drop_left]
    obtain ⟨_, _, bound, _⟩ := prefix_lines part
    have few : ∀ x ∈ drains ++ [d], x.whole content ≤ x.batch.length := by
      intro x mem
      rcases List.mem_append.mp mem with old | new
      · exact ih.few x old
      · rw [List.mem_singleton.mp new, lines]
        exact bound
    have torn : ∃ front tail, Torn front tail (log ++ taken) ∧
        found front = (drains ++ [d]).flatMap (Drain.yields content) := by
      obtain ⟨front, tail, torn, read⟩ := ih.torn
      obtain ⟨front', tail', torn', read'⟩ := torn.attempt part
      refine ⟨front', tail', torn', ?_⟩
      have aligned : decide (Closed log) = decide (d.Aligned content) := by
        rw [decide_eq_decide, Drain.Aligned, before]
      rw [read', read, List.flatMap_append, ← lines, aligned, List.flatMap_singleton]
      rfl
    cases ok : d.succeeded with
    | false =>
      have same : Loop.batches (drains ++ [d]) = Loop.batches drains := by
        simp [Loop.batches, ok]
      refine ⟨torn, few, ?_, fun none => ?_⟩
      · rw [attempts_failed drains ok, same]
        exact ih.retried
      · rw [pending_failed drains ok] at none
        exact absurd none (by simp)
    | true =>
      have all := whole ok
      have more : Loop.batches (drains ++ [d]) = Loop.batches drains ++ [d.batch] := by
        simp [Loop.batches, ok]
      have complete : d.whole content = d.batch.length := by rw [lines, all, count_lines]
      have tries : Retried content (pending drains ++ [d]) d.batch := by
        refine ⟨nonempty, fun t mem => ?_, fun t mem => ?_, d, by simp, complete⟩
        · rcases List.mem_append.mp mem with old | new
          · exact again t old
          · exact List.mem_singleton.mp new ▸ List.prefix_rfl
        · refine few t ?_
          rcases List.mem_append.mp mem with old | new
          · exact List.mem_append_left _ (mem_pending old)
          · exact List.mem_append_right _ new
      refine ⟨torn, few, ?_, fun _ => ?_⟩
      · rw [attempts_succeeded drains ok, more]
        exact List.rel_append ih.retried (.cons tries .nil)
      · rw [all]
        exact closed_behind_lines nonempty log

namespace Loop

/-- Between two drains, the last of which went through, everything that was drained is read back in
the order of addition exactly if the first record of every batch landed; and then nothing else is
read. -/
theorem recovers_drained_iff (io : Sink σ) (f : Flusher σ) (steps : List Step)
    (distinct : ((f.buffer.records ++ pushed steps).map Record.lsn).Nodup)
    (idle : (run io.recorded (start f.recorded) steps).hand = .empty)
    (through : pending (run io.recorded (start f.recorded) steps).drains = []) :
    let l := run io.recorded (start f.recorded) steps
    let bytes := l.flusher.writer.sink.1
    (l.drained.Sublist (recover bytes).1 ↔
      ∀ tries ∈ attempts l.drains, Lands Prod.fst tries) ∧
    ((∀ tries ∈ attempts l.drains, Lands Prod.fst tries) →
      (recover bytes).1 = l.drained ∧
      ∀ r ∈ l.drained, r.lsn ≤ (recover bytes).2.lastLsn) := by
  intro l bytes
  have traced := traced_run io.appends_recorded (traced_start Prod.fst f.recorded) steps
  have conserved : l.contents = f.buffer.records ++ pushed steps :=
    contents_run io.recorded (start f.recorded) steps
  have trail : Trail Prod.fst [] l.drains bytes := by
    simp only [Traced, idle] at traced
    exact traced.1
  have told := told_trail trail
  have here : ((batches l.drains).flatten.map Record.lsn).Nodup := by
    rw [← conserved] at distinct
    refine distinct.sublist (List.Sublist.map _ ?_)
    exact (List.sublist_append_left _ _).trans (List.sublist_append_left _ _)
  obtain ⟨front, tail, torn, read⟩ := told.torn
  have log : found bytes = (attempts l.drains).flatten.flatMap (Drain.yields Prod.fst) := by
    have closed := torn.closed_iff.mp (told.closed through)
    have whole : bytes = front := by
      rw [torn.whole, closed]
      exact List.append_nil _
    have all := flatten_attempts l.drains
    rw [through, List.append_nil] at all
    rw [whole, read, all]
  have back : recovered bytes = firsts ((attempts l.drains).flatten.flatMap (Drain.yields Prod.fst)) := by
    rw [recovered_eq, log]
  obtain ⟨few, same⟩ := firsts_batches told.retried here
  rw [← back] at few same
  have inPlace : (∀ tries ∈ attempts l.drains, Lands Prod.fst tries) →
      recovered bytes = l.drained := same.mpr
  refine ⟨⟨fun sublist => ?_, fun lands => ?_⟩, fun lands => ⟨inPlace lands, fun r mem => ?_⟩⟩
  · exact same.mp (sublist.eq_of_length_le few).symm
  · exact (inPlace lands) ▸ List.Sublist.refl _
  · rw [lastLsn_recover]
    have there : r ∈ recovered bytes := inPlace lands ▸ mem
    exact le_top there

/-- A batch whose second line is refused is written again as a whole; the line that got out twice
is read once. -/
theorem recovers_drained_repeated :
    let f := Flusher.scripted .perRecord [.ok 63, .error .takesNothing]
    let l := run (Sink.recorded .scripted) (start f.recorded)
      [.add (.numbered 1), .add (.numbered 2), .swap, .write, .write, .settle,
        .swap, .write, .write, .settle]
    (recover l.flusher.writer.sink.1).1 = l.drained ∧ l.drained.length = 2 := by
  refine ⟨?_, by decide +kernel⟩
  exact ((recovers_drained_iff .scripted (.scripted .perRecord [.ok 63, .error .takesNothing])
    [.add (.numbered 1), .add (.numbered 2), .swap, .write, .write, .settle,
      .swap, .write, .write, .settle] (by decide +kernel) (by decide +kernel)
    (by decide +kernel)).2 (by decide +kernel)).1

/-- One byte of the first attempt is enough to spoil the line of the second: the drain goes through
and nothing is read. -/
theorem retried_record_lost :
    let f := Flusher.scripted .perBatch [.ok 1, .error .takesNothing]
    let l := run (Sink.recorded .scripted) (start f.recorded)
      [.add (.numbered 1), .swap, .write, .settle, .swap, .write, .settle]
    l.hand = .empty ∧ pending l.drains = [] ∧ l.drained = [.numbered 1] ∧
      l.flusher.sequence.durable = 1 ∧ (recover l.flusher.writer.sink.1).1 = [] := by
  decide +kernel

end Loop

end PageJournal.Log
