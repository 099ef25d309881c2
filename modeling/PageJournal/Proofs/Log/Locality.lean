import PageJournal.Proofs.Log.Scan
import PageJournal.Proofs.Outcome

/-! Damage to a log stays in its line. The calls of a reader until the end of the log give at most one item
for each line, and the lines are the only division of the bytes into pieces that end at a line feed. So a
part with all its lines ended is read on its own, and a line that is overwritten changes its own item only. -/
namespace PageJournal.Log

open Text

/-- Calls of the reader until the end of the log: the items that they give, and how many lines were read. -/
inductive Scan : Reader → List Item → Nat → Prop
  | stop {r last : Reader} : r.next = (none, last) → Scan r [] last.lineNumber
  | item {r later : Reader} {x : Item} {xs : List Item} {n : Nat} :
      r.next = (some x, later) → Scan later xs n → Scan r (x :: xs) n

/-- Pieces of a log that are its lines: each of them ends with its only line feed, which the last one may
lack. -/
inductive Framed : List Bytes → Prop
  | nothing : Framed []
  | last {body : Bytes} : body ≠ [] → lineFeed ∉ body → Framed [body]
  | line {body : Bytes} {ls : List Bytes} :
      lineFeed ∉ body → Framed ls → Framed ((body ++ [lineFeed]) :: ls)

section Scan

variable {r s : Reader} {xs ys : List Item} {m n : Nat}

theorem Scan.unique (one : Scan r xs m) (other : Scan r ys n) : xs = ys ∧ m = n := by
  induction one generalizing ys with
  | stop ended =>
    cases other with
    | stop also =>
      rw [ended] at also
      cases also
      exact ⟨rfl, rfl⟩
    | item given _ =>
      rw [ended] at given
      cases given
  | item given _ ih =>
    cases other with
    | stop ended =>
      rw [given] at ended
      cases ended
    | item also rest =>
      rw [given] at also
      cases also
      obtain ⟨rfl, rfl⟩ := ih rest
      exact ⟨rfl, rfl⟩

/-- Only what the next call gives matters. -/
theorem Scan.congr (scan : Scan s xs n) (same : r.next = s.next) : Scan r xs n := by
  cases scan with
  | stop ended => exact .stop (same.trans ended)
  | item given rest => exact .item (same.trans given) rest

/-- A blank line is passed over by the call that meets it, and each other line is given by a call. -/
theorem scan_lines (ls : List Bytes) (k : Nat) :
    Scan ⟨ls, k⟩ (ls.filterMap Item.ofLine?) (k + ls.length) := by
  induction ls generalizing k with
  | nil =>
    have ended : (Reader.mk [] k).next = (none, ⟨[], k⟩) := rfl
    exact .stop ended
  | cons line rest ih =>
    have later := ih (k + 1)
    rw [Nat.add_right_comm] at later
    cases content : Item.ofLine? line with
    | none =>
      rw [List.filterMap_cons_none content]
      apply later.congr
      simp [Reader.next, Reader.nextFrom, content]
    | some x =>
      rw [List.filterMap_cons_some content]
      refine .item ?_ later
      simp [Reader.next, Reader.nextFrom, content]

theorem scan_iff {bytes : Bytes} :
    Scan (.ofBytes bytes) xs n ↔ xs = items bytes ∧ n = (lines bytes).length := by
  have whole := scan_lines (lines bytes) 0
  rw [Nat.zero_add] at whole
  constructor
  · exact fun scan => scan.unique whole
  · rintro ⟨rfl, rfl⟩
    exact whole

end Scan

theorem flatten_lines (bytes : Bytes) : (lines bytes).flatten = bytes := by
  induction bytes with
  | nil => rfl
  | cons b rest ih =>
    rw [lines_cons]
    split
    · rw [List.flatten_cons, ih]
      rfl
    · cases h : lines rest with
      | nil => simp [lines_eq_nil.mp h]
      | cons l ls =>
        rw [h] at ih
        rw [← ih]
        rfl

theorem framed_lines (bytes : Bytes) : Framed (lines bytes) := by
  induction bytes with
  | nil => exact .nothing
  | cons b rest ih =>
    rw [lines_cons]
    split
    · next feed =>
      rw [feed]
      exact .line List.not_mem_nil ih
    · next other =>
      have outside : ∀ {body : Bytes}, lineFeed ∉ body → lineFeed ∉ b :: body :=
        fun clean mem => (List.mem_cons.mp mem).elim (fun feed => other feed.symm) clean
      cases h : lines rest with
      | nil => exact .last (List.cons_ne_nil _ _) (outside List.not_mem_nil)
      | cons l ls =>
        rw [h] at ih
        cases ih with
        | last nonempty clean => exact .last (List.cons_ne_nil _ _) (outside clean)
        | line clean framed => exact .line (outside clean) framed

theorem Framed.lines_flatten {ls : List Bytes} (framed : Framed ls) : lines ls.flatten = ls := by
  induction framed with
  | nothing => rfl
  | last nonempty clean => simp [lines_of_noFeed clean, nonempty]
  | line clean _ ih =>
    rw [List.flatten_cons, List.append_assoc, List.singleton_append, lines_append_lineFeed clean, ih]

theorem eq_lines_iff {ls : List Bytes} {bytes : Bytes} :
    ls = lines bytes ↔ ls.flatten = bytes ∧ Framed ls := by
  constructor
  · rintro rfl
    exact ⟨flatten_lines bytes, framed_lines bytes⟩
  · rintro ⟨rfl, framed⟩
    exact framed.lines_flatten.symm

theorem framed_cons {l : Bytes} {ls : List Bytes} : Framed (l :: ls) ↔
    (∃ body, l = body ++ [lineFeed] ∧ lineFeed ∉ body ∧ Framed ls) ∨
      (l ≠ [] ∧ lineFeed ∉ l ∧ ls = []) := by
  constructor
  · intro framed
    cases framed with
    | last nonempty clean => exact .inr ⟨nonempty, clean, rfl⟩
    | line clean framed => exact .inl ⟨_, rfl, clean, framed⟩
  · rintro (⟨body, rfl, clean, framed⟩ | ⟨nonempty, clean, rfl⟩)
    · exact .line clean framed
    · exact .last nonempty clean

/-- The line between others when it is written anew. Without bytes and end it is no line any more. -/
def renewed (body ending : Bytes) : List Bytes := if body ++ ending = [] then [] else [body ++ ending]

theorem flatten_renewed (body ending : Bytes) : (renewed body ending).flatten = body ++ ending := by
  unfold renewed
  split
  · next empty => rw [empty]; rfl
  · exact List.flatten_singleton

theorem filterMap_renewed (body ending : Bytes) :
    (renewed body ending).filterMap Item.ofLine? = (Item.ofLine? (body ++ ending)).toList := by
  unfold renewed
  split
  · next empty => rw [empty]; rfl
  · cases content : Item.ofLine? (body ++ ending) <;> simp [content]

/-- Any line but its end can be written anew: the other lines stay the lines that they were. -/
theorem Framed.renew {front : List Bytes} {line : Bytes} {rest : List Bytes}
    (framed : Framed (front ++ line :: rest)) :
    ∃ body ending, line = body ++ ending ∧ lineFeed ∉ body ∧
      (ending = [lineFeed] ∨ ending = [] ∧ rest = []) ∧
      ∀ fresh, lineFeed ∉ fresh → Framed (front ++ renewed fresh ending ++ rest) := by
  induction front with
  | nil =>
    obtain ⟨body, rfl, clean, framed⟩ | ⟨-, clean, rfl⟩ := framed_cons.mp framed
    · refine ⟨body, [lineFeed], rfl, clean, .inl rfl, fun fresh outside => ?_⟩
      rw [renewed, if_neg (by simp)]
      exact .line outside framed
    · refine ⟨line, [], (List.append_nil _).symm, clean, .inr ⟨rfl, rfl⟩, fun fresh outside => ?_⟩
      unfold renewed
      split
      · exact .nothing
      · next nonempty =>
        rw [List.append_nil] at nonempty
        simpa using Framed.last nonempty outside
  | cons l front ih =>
    obtain ⟨first, rfl, closed, later⟩ | ⟨-, -, none⟩ := framed_cons.mp framed
    · obtain ⟨body, ending, whole, clean, ends, renews⟩ := ih later
      exact ⟨body, ending, whole, clean, ends, fun fresh outside => .line closed (renews fresh outside)⟩
    · exact absurd none (by simp)

theorem ofLine?_eq_none {line : Bytes} :
    Item.ofLine? line = none ↔ ∃ text, line = Utf8.encode text ∧ allBlank text = true := by
  simp only [← Utf8.decode_eq_ok]
  unfold Item.ofLine?
  cases Utf8.decode line <;> simp

/-- A log is read whole exactly if all its items are records. -/
theorem records_eq_ok {bytes : Bytes} {rs : List Record} :
    records bytes = .ok rs ↔ items bytes = rs.map .record := by
  unfold records
  induction items bytes generalizing rs with
  | nil => cases rs <;> simp [pure, Except.pure]
  | cons x xs ih =>
    rw [List.mapM_cons, bind_eq_ok]
    cases x with
    | damaged cause => cases rs <;> simp
    | record r =>
      cases rs with
      | nil => simp [bind_eq_ok, pure, Except.pure]
      | cons first rest => simp [bind_eq_ok, pure, Except.pure, ih, and_comm]

/-- Items without damage are records. -/
theorem eq_map_record {xs : List Item} (undamaged : ∀ cause, .damaged cause ∉ xs) :
    xs = (xs.filterMap Item.record?).map .record := by
  induction xs with
  | nil => rfl
  | cons x xs ih =>
    cases x with
    | damaged cause => exact absurd List.mem_cons_self (undamaged cause)
    | record r =>
      have later := ih fun cause mem => undamaged cause (List.mem_cons_of_mem _ mem)
      exact congrArg (.record r :: ·) later

theorem exists_records_iff {bytes : Bytes} :
    (∃ rs, records bytes = .ok rs) ↔ ∀ cause, .damaged cause ∉ items bytes := by
  simp only [records_eq_ok]
  constructor
  · rintro ⟨rs, read⟩ cause mem
    rw [read] at mem
    simp at mem
  · exact fun undamaged => ⟨found bytes, eq_map_record undamaged⟩

/-- The items of a log are those of its lines, in order and by themselves. One scan gives them, two parts of
which the first has its last line ended are scanned apart, and a line that is overwritten up to its end
leaves the others with the items that they had. -/
theorem scan_is_local :
    (∀ (bytes : Bytes) (xs : List Item) (n : Nat), Scan (.ofBytes bytes) xs n ↔
      xs = (lines bytes).filterMap Item.ofLine? ∧ n = (lines bytes).length) ∧
    (∀ (bytes : Bytes) (ls : List Bytes), ls = lines bytes ↔ ls.flatten = bytes ∧ Framed ls) ∧
    (∀ line : Bytes, Item.ofLine? line = none ↔
      ∃ text, line = Utf8.encode text ∧ allBlank text = true) ∧
    (∀ (a b : Bytes) (xs ys : List Item) (m n : Nat), Closed a →
      Scan (.ofBytes a) xs m → Scan (.ofBytes b) ys n →
      Scan (.ofBytes (a ++ b)) (xs ++ ys) (m + n)) ∧
    (∀ (bytes : Bytes) (xs : List Item) (n : Nat), Scan (.ofBytes bytes) xs n →
      ((∃ rs, records bytes = .ok rs) ↔ ∀ cause, .damaged cause ∉ xs) ∧
      ∀ rs, records bytes = .ok rs → xs = rs.map .record) ∧
    (∀ (bytes : Bytes) (front : List Bytes) (line : Bytes) (rest : List Bytes),
      lines bytes = front ++ line :: rest →
      ∃ body ending, line = body ++ ending ∧ lineFeed ∉ body ∧
        (ending = [lineFeed] ∨ ending = [] ∧ rest = []) ∧
        ∀ fresh, lineFeed ∉ fresh →
          Scan (.ofBytes (front.flatten ++ (fresh ++ ending) ++ rest.flatten))
            (front.filterMap Item.ofLine? ++ (Item.ofLine? (fresh ++ ending)).toList ++
              rest.filterMap Item.ofLine?)
            (front.length + (renewed fresh ending).length + rest.length)) := by
  have exact : ∀ {bytes : Bytes} {xs : List Item} {n : Nat}, Scan (.ofBytes bytes) xs n ↔
      xs = (lines bytes).filterMap Item.ofLine? ∧ n = (lines bytes).length := scan_iff
  refine ⟨fun _ _ _ => exact, fun _ _ => eq_lines_iff, fun _ => ofLine?_eq_none, ?_, ?_, ?_⟩
  · intro a b xs ys m n closed first second
    obtain ⟨rfl, rfl⟩ := exact.mp first
    obtain ⟨rfl, rfl⟩ := exact.mp second
    rw [exact, lines_append_closed closed, List.filterMap_append, List.length_append]
    exact ⟨rfl, rfl⟩
  · intro bytes xs n scan
    obtain ⟨rfl, -⟩ := scan_iff.mp scan
    exact ⟨exists_records_iff, fun _ => records_eq_ok.mp⟩
  · intro bytes front line rest split
    have framed := framed_lines bytes
    rw [split] at framed
    obtain ⟨body, ending, whole, clean, ends, renews⟩ := framed.renew
    refine ⟨body, ending, whole, clean, ends, fun fresh outside => ?_⟩
    have anew := (renews fresh outside).lines_flatten
    rw [List.flatten_append, List.flatten_append, flatten_renewed] at anew
    rw [exact, anew, List.filterMap_append, List.filterMap_append, filterMap_renewed,
      List.length_append, List.length_append]
    exact ⟨rfl, rfl⟩

/-- A damaged line, and behind it a last one that holds a no-break space and lacks its end. -/
theorem scan_is_local_damaged_blank :
    Scan (.ofBytes ([0xFF, lineFeed] ++ [0xC2, 0xA0])) [.damaged (.notUtf8 (.invalid 0 1))] 2 := by
  have damaged := (scan_is_local.1 [0xFF, lineFeed] _ _).mpr ⟨rfl, rfl⟩
  have blank := (scan_is_local.1 [0xC2, 0xA0] _ _).mpr ⟨rfl, rfl⟩
  exact scan_is_local.2.2.2.1 _ _ _ _ _ _ (by decide) damaged blank

end PageJournal.Log
