import PageJournal.Log.Writer
import PageJournal.Proofs.Log.Line
import PageJournal.Proofs.Text.Utf8

/-! How a log splits into lines. A part that is empty or ends with a line feed is scanned on its
own, so the items of such a part are followed by the items of whatever stands behind it. -/
namespace PageJournal.Log

open Text

/-- Every line of the bytes has its end. -/
def Closed (bytes : Bytes) : Prop := bytes = [] ∨ bytes.getLast? = some lineFeed

instance (bytes : Bytes) : Decidable (Closed bytes) := by unfold Closed; infer_instance

theorem closed_concat (front : Bytes) : Closed (front ++ [lineFeed]) :=
  .inr List.getLast?_concat

theorem closed_append {a b : Bytes} (ha : Closed a) (hb : Closed b) : Closed (a ++ b) := by
  rcases hb with rfl | hb
  · rw [List.append_nil]
    exact ha
  · exact .inr (by rw [List.getLast?_append, hb, Option.some_or])

theorem not_closed_append {front : Bytes} {tail : Bytes} (nonempty : tail ≠ [])
    (noFeed : lineFeed ∉ tail) : ¬ Closed (front ++ tail) := by
  rintro (nil | last)
  · exact nonempty (List.append_eq_nil_iff.mp nil).2
  · rw [List.getLast?_append, List.getLast?_eq_some_getLast nonempty, Option.some_or] at last
    exact noFeed (Option.some.inj last ▸ List.getLast_mem nonempty)

theorem lines_cons (b : UInt8) (rest : Bytes) :
    lines (b :: rest) =
      if b = lineFeed then [b] :: lines rest
      else match lines rest with
        | [] => [[b]]
        | l :: ls => (b :: l) :: ls := rfl

theorem lines_eq_nil {bytes : Bytes} : lines bytes = [] ↔ bytes = [] := by
  constructor
  · intro h
    cases bytes with
    | nil => rfl
    | cons b rest =>
      rw [lines_cons] at h
      split at h
      · contradiction
      · split at h <;> contradiction
  · rintro rfl
    rfl

/-- Lines behind a text that does not end its line: the text belongs to the first of them. -/
def behind (front : Bytes) : List Bytes → List Bytes
  | [] => if front = [] then [] else [front]
  | l :: ls => (front ++ l) :: ls

theorem lines_append {front : Bytes} (noFeed : lineFeed ∉ front) (rest : Bytes) :
    lines (front ++ rest) = behind front (lines rest) := by
  induction front with
  | nil => cases h : lines rest <;> simp [behind, h]
  | cons b front ih =>
    have other : b ≠ lineFeed := fun h => noFeed (h ▸ List.mem_cons_self)
    have later : lineFeed ∉ front := fun h => noFeed (List.mem_cons_of_mem b h)
    rw [List.cons_append, lines_cons, if_neg other, ih later]
    cases lines rest with
    | nil => by_cases h : front = [] <;> simp [behind, h]
    | cons l ls => rfl

theorem lines_of_noFeed {tail : Bytes} (noFeed : lineFeed ∉ tail) :
    lines tail = if tail = [] then [] else [tail] := by
  have h := lines_append noFeed []
  rwa [List.append_nil] at h

theorem lines_append_lineFeed {front : Bytes} (noFeed : lineFeed ∉ front) (rest : Bytes) :
    lines (front ++ lineFeed :: rest) = (front ++ [lineFeed]) :: lines rest := by
  rw [lines_append noFeed, lines_cons, if_pos rfl]
  rfl

/-- Lines that have their end are not touched by what follows. -/
theorem lines_append_closed {a : Bytes} (closed : Closed a) (b : Bytes) :
    lines (a ++ b) = lines a ++ lines b := by
  induction a with
  | nil => rfl
  | cons c rest ih =>
    have last : (c :: rest).getLast? = some lineFeed := closed.resolve_left (List.cons_ne_nil _ _)
    rw [List.cons_append, lines_cons, lines_cons]
    cases rest with
    | nil =>
      have feed : c = lineFeed := Option.some.inj last
      rw [if_pos feed, if_pos feed]
      rfl
    | cons d rest =>
      have tail := ih (.inr (by rwa [List.getLast?_cons_cons] at last))
      rw [tail]
      split
      · rfl
      · cases h : lines (d :: rest) with
        | nil => exact absurd (lines_eq_nil.mp h) (List.cons_ne_nil _ _)
        | cons l ls => rfl

theorem items_append {a : Bytes} (closed : Closed a) (b : Bytes) :
    items (a ++ b) = items a ++ items b := by
  rw [items, lines_append_closed closed, List.filterMap_append]
  rfl

/-- The records of a log, damaged lines left out. -/
def found (bytes : Bytes) : List Record := (items bytes).filterMap Item.record?

theorem found_append {a : Bytes} (closed : Closed a) (b : Bytes) :
    found (a ++ b) = found a ++ found b := by
  rw [found, items_append closed, List.filterMap_append]
  rfl

namespace Record

/-- The bytes of a record's line without its end. -/
def text (r : Record) : Bytes := Utf8.encode r.render

theorem lineFeed_eq : lineFeed = UInt8.ofNat ('\n').toNat := rfl

theorem line_eq (r : Record) : r.line = r.text ++ [lineFeed] := by
  rw [line, Utf8.encode_append]
  rfl

theorem closed_line (r : Record) : Closed r.line := by
  rw [line_eq]
  exact closed_concat _

theorem noFeed_visible {s : List Char} (visible : ∀ c ∈ s, IsVisible c) :
    lineFeed ∉ Utf8.encode s := by
  rw [lineFeed_eq, Utf8.byte_mem_encode (fun c hc => (visible c hc).2) (by decide)]
  intro feed
  exact absurd (visible _ feed).1 (by decide)

theorem lineFeed_not_mem_text (r : Record) : lineFeed ∉ r.text := noFeed_visible (visible_render r)

theorem text_ne_nil (r : Record) : r.text ≠ [] := by
  obtain ⟨front, shape, -⟩ := (spelled_render r).shape
  rw [text, Utf8.encode_ascii (ascii_render r), shape]
  simp

/-- What can stand behind the visible part of a line: its end, or nothing. -/
def IsEnd (ending : List Char) : Prop := ending = [] ∨ ending = ['\n']

theorem IsEnd.blank {ending : List Char} (h : IsEnd ending) : ∀ c ∈ ending, isBlank c = true := by
  rcases h with rfl | rfl
  · exact nofun
  · intro c mem
    rw [List.mem_singleton.mp mem]
    rfl

theorem IsEnd.ascii {ending : List Char} (h : IsEnd ending) : Ascii ending := by
  rcases h with rfl | rfl
  · exact nofun
  · intro c mem
    rw [List.mem_singleton.mp mem]
    decide

/-- The item of a line of visible text: a record exactly if the text spells it. -/
theorem ofLine?_eq_record {s ending : List Char} (visible : ∀ c ∈ s, IsVisible c)
    (isEnd : IsEnd ending) {r : Record} :
    Item.ofLine? (Utf8.encode (s ++ ending)) = some (.record r) ↔ r.Spelled s := by
  have ascii : Ascii (s ++ ending) := Ascii.append (fun c hc => (visible c hc).2) isEnd.ascii
  have trimmed : trimEnd (s ++ ending) = s := trimEnd_visible visible isEnd.blank
  rw [Item.ofLine?, Utf8.decode_encode, ← trimmed, ← parse_eq_ok, trimmed]
  dsimp only
  rw [Item.ofText]
  split
  · next blank =>
    have nothing : s = [] := trimmed.symm.trans (trimEnd_eq_nil.mpr blank)
    have unspelled : parse (s ++ ending) ≠ .ok r := by
      rw [Ne, parse_eq_ok, trimmed, nothing]
      intro spelled
      obtain ⟨front, shape, -⟩ := spelled.shape
      cases shape
    simp [unspelled]
  · cases parse (s ++ ending) <;> simp

theorem lines_visible {s ending : List Char} (visible : ∀ c ∈ s, IsVisible c)
    (isEnd : IsEnd ending) :
    lines (Utf8.encode (s ++ ending)) =
      if s ++ ending = [] then [] else [Utf8.encode (s ++ ending)] := by
  have noFeed := noFeed_visible visible
  rcases isEnd with rfl | rfl
  · rw [List.append_nil, lines_of_noFeed noFeed]
    have empty : Utf8.encode s = [] ↔ s = [] := by
      rw [Utf8.encode_ascii fun c hc => (visible c hc).2, List.map_eq_nil_iff]
    simp only [empty]
  · rw [Utf8.encode_append, if_neg (by simp)]
    exact lines_append_lineFeed noFeed []

/-- What is read from one line of visible text. -/
theorem mem_found_visible {s ending : List Char} (visible : ∀ c ∈ s, IsVisible c)
    (isEnd : IsEnd ending) {r : Record} :
    r ∈ found (Utf8.encode (s ++ ending)) ↔ r.Spelled s := by
  rw [found, items, lines_visible visible isEnd, ← ofLine?_eq_record visible isEnd]
  split
  · next empty =>
    rw [empty]
    exact ⟨nofun, nofun⟩
  · cases h : Item.ofLine? (Utf8.encode (s ++ ending)) with
    | none => simp [h]
    | some item => cases item <;> simp [h, Item.record?, eq_comm]

theorem ofLine?_line (r : Record) : Item.ofLine? r.line = some (.record r) :=
  (ofLine?_eq_record (visible_render r) (.inr rfl)).mpr (spelled_render r)

theorem ofLine?_text (r : Record) : Item.ofLine? r.text = some (.record r) := by
  have h := (ofLine?_eq_record (visible_render r) (.inl rfl)).mpr (spelled_render r)
  rwa [List.append_nil] at h

theorem items_line (r : Record) : items r.line = [.record r] := by
  have alone : lines r.line = [r.line] := by
    rw [line_eq, lines_append_lineFeed r.lineFeed_not_mem_text]
    rfl
  rw [items, alone, List.filterMap_cons_some r.ofLine?_line]
  rfl

end Record

theorem closed_lines (rs : List Record) : Closed (rs.flatMap Record.line) := by
  induction rs with
  | nil => exact .inl rfl
  | cons r rest ih => exact closed_append r.closed_line ih

/-- What is written is read back. -/
theorem items_lines (rs : List Record) : items (rs.flatMap Record.line) = rs.map .record := by
  induction rs with
  | nil => rfl
  | cons r rest ih => rw [List.flatMap_cons, items_append r.closed_line, r.items_line, ih]; rfl

theorem found_lines (rs : List Record) : found (rs.flatMap Record.line) = rs := by
  rw [found, items_lines, List.filterMap_map]
  exact List.filterMap_some

end PageJournal.Log
