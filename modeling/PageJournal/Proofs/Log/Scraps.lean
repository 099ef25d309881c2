import PageJournal.Proofs.Log.Recovery
import PageJournal.Proofs.Log.Trail
import PageJournal.Proofs.Lists

/-! A log that failed writes have torn is a row of scraps, each the beginning of some record's line.
Wherever it is cut, only records that were added are read from it. -/
namespace PageJournal.Log

open Text

/-- A row of beginnings of lines of some records. -/
def Scraps (rs : List Record) (bytes : Bytes) : Prop :=
  ∃ parts : List (List Char), (∀ part ∈ parts, ∃ r ∈ rs, part <+: r.render ++ ['\n']) ∧
    bytes = Utf8.encode parts.flatten

theorem scraps_nil (rs : List Record) : Scraps rs [] := ⟨[], nofun, rfl⟩

theorem Scraps.append {rs : List Record} {a b : Bytes} (ha : Scraps rs a) (hb : Scraps rs b) :
    Scraps rs (a ++ b) := by
  obtain ⟨parts, begin, rfl⟩ := ha
  obtain ⟨more, begin', rfl⟩ := hb
  refine ⟨parts ++ more, fun part mem => ?_, ?_⟩
  · rcases List.mem_append.mp mem with mem | mem
    · exact begin part mem
    · exact begin' part mem
  · rw [List.flatten_append, Utf8.encode_append]

theorem Scraps.mono {rs more : List Record} {bytes : Bytes} (h : Scraps rs bytes)
    (subset : rs ⊆ more) : Scraps more bytes := by
  obtain ⟨parts, begin, same⟩ := h
  refine ⟨parts, fun part mem => ?_, same⟩
  obtain ⟨r, there, start⟩ := begin part mem
  exact ⟨r, subset there, start⟩

theorem scraps_lines (rs : List Record) : Scraps rs (rs.flatMap Record.line) := by
  refine ⟨rs.map fun r => r.render ++ ['\n'], fun part mem => ?_, ?_⟩
  · obtain ⟨r, there, rfl⟩ := List.mem_map.mp mem
    exact ⟨r, there, List.prefix_rfl⟩
  · induction rs with
    | nil => rfl
    | cons r rest ih =>
      rw [List.flatMap_cons, List.map_cons, List.flatten_cons, Utf8.encode_append, ih]
      rfl

theorem ascii_part {r : Record} {part : List Char} (start : part <+: r.render ++ ['\n']) :
    Ascii part := by
  have feed : Ascii ['\n'] := Record.IsEnd.ascii (.inr rfl)
  exact Ascii.cut (Ascii.append (Record.ascii_render r) feed) start

theorem ascii_flatten {parts : List (List Char)} (ascii : ∀ part ∈ parts, Ascii part) :
    Ascii parts.flatten := by
  intro c mem
  obtain ⟨part, there, inside⟩ := List.mem_flatten.mp mem
  exact ascii part there c inside

theorem Scraps.cut {rs : List Record} {bytes cut : Bytes} (h : Scraps rs bytes)
    (start : cut <+: bytes) : Scraps rs cut := by
  obtain ⟨parts, begin, rfl⟩ := h
  have ascii : Ascii parts.flatten := by
    refine ascii_flatten fun part mem => ?_
    obtain ⟨r, -, inside⟩ := begin part mem
    exact ascii_part inside
  obtain ⟨text, inside, rfl⟩ := Utf8.exists_of_prefix_encode ascii start
  obtain ⟨torn, rfl, cuts⟩ := exists_of_prefix_flatten inside
  refine ⟨torn, fun part mem => ?_, rfl⟩
  obtain ⟨full, there, short⟩ := cuts part mem
  obtain ⟨r, known, long⟩ := begin full there
  exact ⟨r, known, short.trans long⟩

/-- Whatever stands in front of a row of scraps, only records come from it that the first line of
visible text spells, or whose line is one of the scraps. -/
theorem mem_of_found_scraps {rs : List Record} {parts : List (List Char)} {front : List Char}
    (begin : ∀ part ∈ parts, ∃ r ∈ rs, part <+: r.render ++ ['\n'])
    (visible : ∀ c ∈ front, Record.IsVisible c) (known : ∀ s : Record, s.Spelled front → s ∈ rs)
    {s : Record} (read : s ∈ found (Utf8.encode (front ++ parts.flatten))) : s ∈ rs := by
  induction parts generalizing front with
  | nil => exact known s ((Record.mem_found_visible visible (.inl rfl)).mp read)
  | cons part rest ih =>
    have later := fun p mem => begin p (List.mem_cons_of_mem part mem)
    obtain ⟨r, there, start⟩ := begin part List.mem_cons_self
    -- the first line with the scrap, or what the scrap holds of it
    have grown : ∀ text, text <+: r.render → (∀ c ∈ front ++ text, Record.IsVisible c) ∧
        ∀ s : Record, s.Spelled (front ++ text) → s ∈ rs := by
      intro text short
      constructor
      · intro c mem
        rcases List.mem_append.mp mem with mem | mem
        · exact visible c mem
        · exact Record.visible_render r c (short.subset mem)
      · intro s spelled
        by_cases nothing : text = []
        · rw [nothing, List.append_nil] at spelled
          exact known s spelled
        by_cases alone : front = []
        · rw [alone, List.nil_append] at spelled
          have whole : text = r.render := spelled.whole_of_part short
          rw [whole] at spelled
          rw [spelled.eq_of_render]
          exact there
        · exact absurd short (spelled.not_glued alone nothing)
    rw [List.flatten_cons, ← List.append_assoc] at read
    rcases prefix_append_cases start with inside | ⟨feed, rfl, ends⟩
    · obtain ⟨visible, known⟩ := grown part inside
      exact ih later visible known read
    · obtain ⟨visible, known⟩ := grown r.render List.prefix_rfl
      rcases List.prefix_cons_iff.mp ends with rfl | ⟨_, rfl, nothing⟩
      · rw [List.append_nil] at read
        exact ih later visible known read
      · rw [List.prefix_nil.mp nothing] at read
        have split : front ++ (r.render ++ ['\n']) ++ rest.flatten =
            front ++ r.render ++ ['\n'] ++ ([] ++ rest.flatten) := by simp
        rw [split, Utf8.encode_append, found_append] at read
        · rcases List.mem_append.mp read with first | behind
          · exact known s ((Record.mem_found_visible visible (.inr rfl)).mp first)
          · refine @ih [] later nofun (fun s spelled => ?_) behind
            exact absurd rfl (spelled.ne_nil)
        · rw [Utf8.encode_append]
          exact closed_concat _

theorem Scraps.mem_of_found {rs : List Record} {bytes : Bytes} (h : Scraps rs bytes) {r : Record}
    (read : r ∈ found bytes) : r ∈ rs := by
  obtain ⟨parts, begin, rfl⟩ := h
  have nothing : ∀ s : Record, s.Spelled [] → s ∈ rs := fun s spelled => absurd rfl spelled.ne_nil
  have visible : ∀ c ∈ ([] : List Char), Record.IsVisible c := nofun
  exact mem_of_found_scraps begin visible nothing read

namespace Loop

variable {σ : Type} {io : Sink σ} {content : σ → Bytes}

theorem scraps_trail {first : Bytes} {drains : List (Drain σ)} {log : Bytes} {rs : List Record}
    (trail : Trail content first drains log) (start : Scraps rs first)
    (known : ∀ d ∈ drains, d.batch ⊆ rs) : Scraps rs log := by
  induction trail with
  | start => exact start
  | @more drains log taken d earlier before after part whole nonempty again ih =>
    have old := ih fun d mem => known d (List.mem_append_left _ mem)
    have lines := (scraps_lines d.batch).mono (known d (by simp))
    exact old.append (lines.cut part)

/-- Every batch that was ever taken is of records that are somewhere. -/
theorem known_step (io : Sink σ) {l : Loop σ} (known : ∀ d ∈ l.drains, d.batch ⊆ l.contents)
    (s : Step) : ∀ d ∈ (l.step io s).drains, d.batch ⊆ (l.step io s).contents := by
  have kept : l.contents ⊆ (l.step io s).contents := by
    rw [contents_step]
    exact List.subset_append_left _ _
  suffices ∀ d ∈ (l.step io s).drains, d ∈ l.drains ∨ d.batch = l.hand.records by
    intro d mem
    rcases this d mem with old | new
    · exact List.Subset.trans (known d old) kept
    · refine List.Subset.trans (fun r there => ?_) kept
      rw [new] at there
      exact List.mem_append_left _ (List.mem_append_right _ there)
  have move := moves io l s
  generalize l.step io s = after at move ⊢
  intro d mem
  cases move with
  | acknowledge silent holds =>
    rcases List.mem_append.mp mem with old | new
    · exact .inl old
    · rw [List.mem_singleton.mp new, holds]
      exact .inr rfl
  | giveBack silent holds =>
    rcases List.mem_append.mp mem with old | new
    · exact .inl old
    · rw [List.mem_singleton.mp new, holds]
      exact .inr rfl
  | _ => exact .inl mem

theorem known_run (io : Sink σ) {l : Loop σ} (known : ∀ d ∈ l.drains, d.batch ⊆ l.contents)
    (steps : List Step) : ∀ d ∈ (l.run io steps).drains, d.batch ⊆ (l.run io steps).contents := by
  induction steps generalizing l with
  | nil => exact known
  | cons s rest ih => exact ih (known_step io known s)

/-- A log that only the loop wrote holds scraps of what was added. -/
theorem scraps_run (law : io.Appends content) (f : Flusher σ) (empty : content f.writer.sink = [])
    (steps : List Step) :
    Scraps (f.buffer.records ++ pushed steps)
      (content (run io (start f) steps).flusher.writer.sink) := by
  have added : (run io (start f) steps).contents = f.buffer.records ++ pushed steps :=
    contents_run io (start f) steps
  have known := known_run io (l := start f) nofun steps
  have traced := traced_run law (traced_start content f) steps
  rw [added] at known
  have start : Scraps (f.buffer.records ++ pushed steps) (content f.writer.sink) := by
    rw [empty]
    exact scraps_nil _
  generalize run io (.start f) steps = l at added known traced ⊢
  have torn : ∀ batch taken, l.hand.records = batch → taken <+: batch.flatMap Record.line →
      Scraps (f.buffer.records ++ pushed steps) taken := by
    intro batch taken holds part
    have inside : batch ⊆ f.buffer.records ++ pushed steps := by
      rw [← added, ← holds]
      exact fun r there => List.mem_append_left _ (List.mem_append_right _ there)
    exact ((scraps_lines batch).mono inside).cut part
  cases holds : l.hand with
  | empty =>
    simp only [Traced, holds] at traced
    exact scraps_trail traced.1 start known
  | writing batch left =>
    simp only [Traced, holds] at traced
    obtain ⟨trail, ⟨taken, grown, rest⟩, -, -⟩ := traced
    rw [grown]
    refine (scraps_trail trail start known).append (torn batch taken (by rw [holds]; rfl) ?_)
    exact ⟨_, rest⟩
  | failed batch cause =>
    simp only [Traced, holds] at traced
    obtain ⟨trail, ⟨taken, grown, part⟩, -, -⟩ := traced
    rw [grown]
    exact (scraps_trail trail start known).append (torn batch taken (by rw [holds]; rfl) part)

/-- However writes fail and wherever the log is cut, recovery returns only records that were added,
and counts only transactions with an added record that carries the commit flag. -/
theorem recovers_only_added (io : Sink σ) (f : Flusher σ) (steps : List Step) (n : Nat) :
    let bytes := (run io.recorded (start f.recorded) steps).flusher.writer.sink.1.take n
    (∀ r ∈ (recover bytes).1, r ∈ f.buffer.records ++ pushed steps) ∧
    ∃ ids : List UInt64, ids.Nodup ∧ (recover bytes).2.committedTransactions = ids.length ∧
      ∀ id ∈ ids, ∃ r ∈ f.buffer.records ++ pushed steps,
        r.transaction = id ∧ r.committed = true := by
  intro bytes
  have scraps : Scraps (f.buffer.records ++ pushed steps) bytes :=
    (scraps_run io.appends_recorded f.recorded rfl steps).cut (List.take_prefix _ _)
  have added : ∀ r ∈ recovered bytes, r ∈ f.buffer.records ++ pushed steps := by
    intro r mem
    rw [recovered_eq] at mem
    exact scraps.mem_of_found (mem_of_mem_firsts mem)
  refine ⟨added, ?_⟩
  obtain ⟨ids, distinct, count, carried⟩ := committed_recover bytes
  refine ⟨ids, distinct, count, fun id mem => ?_⟩
  obtain ⟨r, there, same, flagged⟩ := carried id mem
  exact ⟨r, added r there, same, flagged⟩

end Loop

end PageJournal.Log
