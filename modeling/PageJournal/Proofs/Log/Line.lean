import PageJournal.Proofs.Log.Grammar

/-! Record lines as texts. They hold visible ASCII characters only, and what is left of them when a
write is cut short is recognised: a strict beginning of a line is no record, and neither is any
text that goes on with the beginning of another line. -/
namespace PageJournal.Log

open Text

namespace Record

/-- A character that a line may hold: visible and ASCII. -/
def IsVisible (c : Char) : Prop := 32 < c.toNat ∧ c.toNat < 128

theorem mem_intercalate_bar {texts : List (List Char)} {c : Char}
    (h : c ∈ ['|'].intercalate texts) : c = '|' ∨ ∃ text ∈ texts, c ∈ text := by
  induction texts with
  | nil => cases h
  | cons text rest ih =>
    cases rest with
    | nil => exact .inr ⟨text, List.mem_cons_self, by simpa [List.intercalate] using h⟩
    | cons next rest =>
      have unfolded : ['|'].intercalate (text :: next :: rest) =
          text ++ '|' :: ['|'].intercalate (next :: rest) := by
        simp [List.intercalate, List.intersperse]
      rw [unfolded] at h
      rcases List.mem_append.mp h with h | h
      · exact .inr ⟨text, List.mem_cons_self, h⟩
      · rcases List.mem_cons.mp h with rfl | h
        · exact .inl rfl
        · rcases ih h with bar | ⟨t, ht, hc⟩
          · exact .inl bar
          · exact .inr ⟨t, List.mem_cons_of_mem _ ht, hc⟩

theorem visible_decimal (n : Nat) : ∀ c ∈ decimal n, IsVisible c := by
  intro c hc
  have range := toNat_lt_of_isDigit (isDigit_of_mem_decimal hc)
  exact ⟨by omega, by omega⟩

/-- A text of visible characters, told by looking at each. -/
theorem visible_of_all {text : List Char}
    (all : (text.all fun c => 32 < c.toNat && c.toNat < 128) = true) :
    ∀ c ∈ text, IsVisible c := by
  intro c mem
  have both := List.all_eq_true.mp all c mem
  simpa [IsVisible] using both

theorem visible_labelled {field : Field} {value : List Char} (h : ∀ c ∈ value, IsVisible c) :
    ∀ c ∈ labelled field value, IsVisible c := by
  have label : ∀ c ∈ field.label.toList, IsVisible c := by
    apply visible_of_all
    cases field <;> rfl
  intro c hc
  rcases List.mem_append.mp hc with hc | hc
  · exact label c hc
  · rcases List.mem_cons.mp hc with rfl | hc
    · exact ⟨by decide, by decide⟩
    · exact h c hc

theorem visible_render (r : Record) : ∀ c ∈ r.render, IsVisible c := by
  have name : ∀ c ∈ r.operation.name.toList, IsVisible c := by
    apply visible_of_all
    cases r.operation <;> rfl
  have ending : ∀ c ∈ flag r.committed, IsVisible c := by
    apply visible_of_all
    cases r.committed <;> rfl
  intro c hc
  rcases mem_intercalate_bar hc with rfl | ⟨text, member, hc⟩
  · exact ⟨by decide, by decide⟩
  · simp only [fields, List.mem_cons, List.not_mem_nil, or_false] at member
    rcases member with rfl | rfl | rfl | rfl | rfl | rfl | rfl | rfl
    · exact visible_labelled (visible_decimal _) c hc
    · exact visible_labelled (visible_decimal _) c hc
    · exact visible_labelled (visible_decimal _) c hc
    · exact visible_labelled name c hc
    · exact visible_labelled (visible_decimal _) c hc
    · exact visible_labelled (visible_decimal _) c hc
    · exact visible_labelled (visible_decimal _) c hc
    · exact visible_labelled ending c hc

theorem not_blank_of_visible {c : Char} (h : IsVisible c) : isBlank c = false := by
  obtain ⟨low, high⟩ := h
  simp only [isBlank, Bool.or_eq_false_iff, Bool.and_eq_false_iff, decide_eq_false_iff_not,
    beq_eq_false_iff_ne]
  omega

theorem ascii_render (r : Record) : Ascii r.render := fun c hc => (visible_render r c hc).2

/-- Trimming goes no further than to the last visible character. -/
theorem trimEnd_behind (before : List Char) {text blanks : List Char} (nonempty : text ≠ [])
    (visible : ∀ c ∈ text, IsVisible c) (blank : ∀ c ∈ blanks, isBlank c = true) :
    trimEnd (before ++ text ++ blanks) = before ++ text := by
  obtain ⟨front, last, rfl⟩ := (List.eq_nil_or_concat text).resolve_left nonempty
  have stays := not_blank_of_visible (visible last (by simp))
  rw [trimEnd, dropTrailing_append blank, List.concat_eq_append, ← List.append_assoc]
  exact dropTrailing_concat stays (before ++ front)

/-- Visible text followed by a line feed, or by nothing, loses nothing else to trimming. -/
theorem trimEnd_visible {text blanks : List Char} (visible : ∀ c ∈ text, IsVisible c)
    (blank : ∀ c ∈ blanks, isBlank c = true) : trimEnd (text ++ blanks) = text := by
  by_cases empty : text = []
  · rw [empty, List.nil_append, trimEnd_eq_nil]
    simpa [allBlank] using blank
  · exact trimEnd_behind [] empty visible blank

/-- The line of a record, with any blanks behind, is read as that record. -/
theorem parse_render (r : Record) {blanks : List Char} (blank : ∀ c ∈ blanks, isBlank c = true) :
    parse (r.render ++ blanks) = .ok r := by
  rw [parse_eq_ok, trimEnd_visible (visible_render r) blank]
  exact spelled_render r

/-- A record's line spells no other record. -/
theorem Spelled.eq_of_render {r s : Record} (h : s.Spelled r.render) : s = r := by
  have trimmed : trimEnd (r.render ++ []) = r.render := trimEnd_visible (visible_render r) nofun
  have here : parse (r.render ++ []) = .ok r := parse_render r nofun
  rw [← trimmed, ← parse_eq_ok, here] at h
  exact (Except.ok.inj h).symm

theorem count_bars {texts : List (List Char)} (clean : ∀ text ∈ texts, '|' ∉ text) :
    (texts.flatMap fun text => '|' :: text).count '|' = texts.length := by
  induction texts with
  | nil => rfl
  | cons text rest ih =>
    have first : text.count '|' = 0 := List.count_eq_zero.mpr (clean text List.mem_cons_self)
    have others := ih fun t ht => clean t (List.mem_cons_of_mem _ ht)
    rw [List.flatMap_cons, List.cons_append, List.count_cons_self, List.count_append, first, others,
      List.length_cons]
    omega

/-- How a line of a record begins and ends, and which separators stand between. -/
theorem Spelled.shape {r : Record} {text : List Char} (h : r.Spelled text) :
    ∃ front, text = 'T' :: 'X' :: front ++ '|' :: labelled .committed (flag r.committed) ∧
      'X' ∉ front ∧ front.count '|' = 6 := by
  obtain ⟨n, denotes, rfl⟩ := h
  let between : List (List Char) :=
    [labelled .lsn n.lsn, labelled .thread n.thread,
      labelled .operation r.operation.name.toList, labelled .page n.page, labelled .size n.size,
      labelled .timestamp n.timestamp]
  refine ⟨'N' :: ':' :: n.transaction ++ between.flatMap fun text => '|' :: text, ?_, ?_, ?_⟩
  · have label : Field.transaction.label.toList = ['T', 'X', 'N'] := rfl
    simp [between, Numerals.texts, labelled, label, List.intercalate, List.intersperse]
  · have transaction : 'X' ∉ n.transaction :=
      not_mem_numeral (mem_of_word64 denotes.transaction) (by decide) (by decide)
    have lsn : 'X' ∉ n.lsn := not_mem_numeral (mem_of_word64 denotes.lsn) (by decide) (by decide)
    have thread : 'X' ∉ n.thread :=
      not_mem_numeral (mem_of_word32 denotes.thread) (by decide) (by decide)
    have page : 'X' ∉ n.page := not_mem_numeral (mem_of_word32 denotes.page) (by decide) (by decide)
    have size : 'X' ∉ n.size := not_mem_numeral (mem_of_word64 denotes.size) (by decide) (by decide)
    have timestamp : 'X' ∉ n.timestamp :=
      not_mem_numeral (mem_of_word64 denotes.timestamp) (by decide) (by decide)
    have name : 'X' ∉ r.operation.name.toList := by cases r.operation <;> decide
    simp [between, labelled, Field.label, transaction, lsn, thread, page, size, timestamp, name]
  · have first : n.transaction.count '|' = 0 :=
      List.count_eq_zero.mpr (bar_not_mem_word64 denotes.transaction)
    have clean : ∀ text ∈ between, '|' ∉ text := by
      intro text member
      apply bar_not_mem_texts denotes
      simp only [between, Numerals.texts, List.mem_cons] at member ⊢
      tauto
    have bars := count_bars clean
    rw [List.count_append, bars]
    simp [first, between]

theorem Spelled.ne_nil {r : Record} {text : List Char} (h : r.Spelled text) : text ≠ [] := by
  obtain ⟨front, shape, -⟩ := h.shape
  rw [shape]
  exact nofun

theorem behind_last_bar {a b c d : List Char} (hb : '|' ∉ b) (hd : '|' ∉ d)
    (same : a ++ '|' :: b = c ++ '|' :: d) : b = d := by
  rcases List.append_eq_append_iff.mp same with ⟨e, -, he⟩ | ⟨e, -, he⟩
  · cases e with
    | nil => exact (List.cons.inj he).2
    | cons x e =>
      have tail := (List.cons.inj he).2
      exact absurd (tail ▸ List.mem_append_right e List.mem_cons_self) hb
  · cases e with
    | nil => exact (List.cons.inj he).2.symm
    | cons x e =>
      have tail := (List.cons.inj he).2
      exact absurd (tail ▸ List.mem_append_right e List.mem_cons_self) hd

/-- No flag begins another. -/
theorem flag_append_eq : ∀ {a b : Bool} {x : List Char}, flag a ++ x = flag b → x = []
  | true, true, _, h => List.append_cancel_left (h.trans (List.append_nil _).symm)
  | false, false, _, h => List.append_cancel_left (h.trans (List.append_nil _).symm)
  | true, false, _, h => absurd (List.cons.inj h).1 (by decide)
  | false, true, _, h => absurd (List.cons.inj h).1 (by decide)

/-- Of the beginnings of a record's line, only the whole of it is a line of a record. -/
theorem Spelled.whole_of_part {r s : Record} {text : List Char} (h : s.Spelled text)
    (part : text <+: r.render) : text = r.render := by
  obtain ⟨x, whole⟩ := part
  obtain ⟨front, shape, -, bars⟩ := h.shape
  obtain ⟨fullFront, fullShape, -, fullBars⟩ := (spelled_render r).shape
  have noBar : ∀ b, '|' ∉ labelled .committed (flag b) := by decide
  -- both lines have seven bars, so the rest of the longer one has none
  have barless : '|' ∉ x := by
    have counts := congrArg (List.count '|') (whole.trans fullShape)
    have countLast : ∀ b, (labelled .committed (flag b)).count '|' = 0 := by decide
    rw [shape] at counts
    simp [List.count_append, countLast, bars, fullBars] at counts
    exact List.count_eq_zero.mp (by omega)
  have aligned : 'T' :: 'X' :: front ++ '|' :: (labelled .committed (flag s.committed) ++ x) =
      'T' :: 'X' :: fullFront ++ '|' :: labelled .committed (flag r.committed) := by
    rw [← fullShape, ← whole, shape]
    simp
  have endings : labelled .committed (flag s.committed) ++ x =
      labelled .committed (flag r.committed) :=
    behind_last_bar (by simp [noBar, barless]) (noBar _) aligned
  have flags : flag s.committed ++ x = flag r.committed := by simpa [labelled] using endings
  rw [← whole, flag_append_eq flags, List.append_nil]
/-- A line that ends in the beginning of another line spells no record. -/
theorem Spelled.not_glued {r s : Record} {before part : List Char} (h : s.Spelled (before ++ part))
    (glued : before ≠ []) (nonempty : part ≠ []) (start : part <+: r.render) : False := by
  obtain ⟨front, shape, noX, -⟩ := h.shape
  obtain ⟨_, own, -, -⟩ := (spelled_render r).shape
  obtain ⟨x, start⟩ := start
  rw [own] at start
  cases part with
  | nil => exact nonempty rfl
  | cons t part =>
    have isT : t = 'T' := (List.cons.inj start).1
    subst isT
    cases part with
    | nil =>
      -- a record's line ends in the last letter of its flag
      have last : ∀ b, ('|' :: labelled .committed (flag b)).getLast? =
          some (if b then 'S' else 'O') := by decide
      have ending := congrArg List.getLast? shape
      rw [List.getLast?_concat, List.getLast?_append, last, Option.some_or] at ending
      have differs : ∀ b : Bool, some 'T' ≠ some (if b then 'S' else 'O') := by decide
      exact differs _ ending
    | cons y part =>
      -- and has no second X
      have isX : y = 'X' := (List.cons.inj (List.cons.inj start).2).1
      subst isX
      have noLaterX : 'X' ∉ front ++ '|' :: labelled .committed (flag s.committed) := by
        have last : ∀ b, 'X' ∉ '|' :: labelled .committed (flag b) := by decide
        simp only [List.mem_append, noX, last, or_self, not_false_eq_true]
      match before, glued, shape with
      | [_], _, shape => exact absurd (List.cons.inj (List.cons.inj shape).2).1 (by decide)
      | _ :: _ :: before, _, shape =>
        have tail : before ++ 'T' :: 'X' :: part = front ++ _ :=
          (List.cons.inj (List.cons.inj shape).2).2
        apply noLaterX
        rw [← tail]
        simp

end Record
end PageJournal.Log
