import PageJournal.Config
import PageJournal.Proofs.Text.Ascii
import PageJournal.Proofs.Text.Numeral
import PageJournal.Transaction.Generator

/-! What a generator makes for a store. Its pages are pages of the store. What an insert or update writes is as long
as the settings say, or as its tag if that is longer, for a tag is never cut. -/
namespace PageJournal

namespace Random.Stream

/-- The upper half of a product with `n` is below `n`, whatever the word. -/
theorem belowIn_lt {n : Nat} (positive : 0 < n) (width : Width) (draws : Nat) (s : Stream) :
    (belowIn width n draws s).1 < n := by
  induction draws generalizing s with
  | zero => exact positive
  | succ draws ih =>
    have drawn : belowIn width n (draws + 1) s =
        if (s.word width).1 * n % 2 ^ width.bits ≤ zone width.bits n then
          ((s.word width).1 * n / 2 ^ width.bits, (s.word width).2)
        else belowIn width n draws (s.word width).2 := rfl
    have word : (s.word width).1 < 2 ^ width.bits := by
      cases width with
      | narrow => exact UInt32.toNat_lt _
      | wide => exact UInt64.toNat_lt _
    rw [drawn]
    split
    · apply Nat.div_lt_of_lt_mul
      exact Nat.mul_lt_mul_of_pos_right word positive
    · exact ih (s.word width).2

theorem below_lt {n : Nat} (positive : 0 < n) (width : Width) (s : Stream) : (s.below width n).1 < n :=
  belowIn_lt positive width patience s

theorem alphanumericIn_mem (draws : Nat) (s : Stream) : (alphanumericIn draws s).1 ∈ alphanumerics := by
  induction draws generalizing s with
  | zero => exact (by decide : 'A' ∈ alphanumerics)
  | succ draws ih =>
    unfold alphanumericIn
    dsimp only
    split
    · next c there => exact List.mem_of_getElem? there
    · exact ih s.word32.2

theorem mem_alphanumericText (n : Nat) (s : Stream) : ∀ c ∈ (alphanumericText n s).1, c ∈ alphanumerics := by
  induction n generalizing s with
  | zero => nofun
  | succ n ih =>
    intro c mem
    simp only [alphanumericText, List.mem_cons] at mem
    rcases mem with rfl | later
    · exact alphanumericIn_mem patience s
    · exact ih s.alphanumeric.2 c later

theorem ascii_alphanumericText (n : Nat) (s : Stream) : Text.Ascii (alphanumericText n s).1 := by
  have ascii : Text.Ascii alphanumerics := by decide
  exact fun c mem => ascii c (mem_alphanumericText n s c mem)

end Random.Stream

/-- What such an operation writes begins with a tag. -/
def Log.Operation.isTagged : Log.Operation → Bool
  | .insert | .update => true
  | .select | .delete => false

theorem Log.Operation.isWrite_of_isTagged {o : Log.Operation} (tagged : o.isTagged = true) : o.isWrite = true := by
  cases o with
  | select => cases tagged
  | insert | update | delete => rfl

namespace Transaction

/-- Four characters before the number and one behind it. -/
theorem length_tag (id : UInt64) : (tag id).length = 5 + (Text.decimal id.toNat).length := by
  have ascii := Text.ascii_of_isNumeral (Text.isNumeral_decimal id.toNat)
  have start : tagStart.length = 4 := by decide
  rw [tag, List.length_append, List.length_append, Text.Utf8.length_encode ascii, start, List.length_singleton]
  omega

/-- A 64-bit number has twenty digits at most. -/
theorem length_tag_le (id : UInt64) : (tag id).length ≤ 25 := by
  have digits : (Text.decimal id.toNat).length ≤ 20 := by
    unfold Text.decimal
    rw [Nat.length_toDigits_le_iff (by decide) (by decide)]
    have := id.toNat_lt
    omega
  rw [length_tag]
  omega

theorem length_tag_max : (tag 0xFFFFFFFFFFFFFFFF).length = 25 := by decide

end Transaction

namespace Generator

open Transaction

variable {c : Config} {g : Generator}

/-- A generator that was made for these settings, from any key, and drawn from any number of times. -/
inductive DrawnFor (c : Config) : Generator → Prop
  | keyed (key : Random.Key) : DrawnFor c { create none c.pageCount c.payloadSize with stream := ⟨key, 0, []⟩ }
  | operation {g : Generator} (drawn : DrawnFor c g) : DrawnFor c g.operation.2
  | page {g : Generator} (drawn : DrawnFor c g) : DrawnFor c g.page.2
  | payload {g : Generator} (drawn : DrawnFor c g) (id : UInt64) (operation : Log.Operation) :
    DrawnFor c (g.payload id operation).2

theorem drawnFor_create (c : Config) (seed : Option UInt64) : DrawnFor c (create seed c.pageCount c.payloadSize) :=
  .keyed (.ofSeed (seed.getD 0))

theorem DrawnFor.transaction (drawn : g.DrawnFor c) (id : UInt64) (thread : UInt32) (lsn : UInt64) :
    (g.transaction id thread lsn).2.DrawnFor c := (drawn.operation.page).payload id g.operation.1

theorem settings_payload (g : Generator) (id : UInt64) (operation : Log.Operation) :
    (g.payload id operation).2.pageCount = g.pageCount ∧
      (g.payload id operation).2.payloadSize = g.payloadSize := by
  cases operation <;> exact ⟨rfl, rfl⟩

/-- A draw changes nothing but the stream. -/
theorem DrawnFor.settings (drawn : g.DrawnFor c) :
    g.pageCount = (if c.pageCount = 0 then 1 else c.pageCount) ∧ g.payloadSize = c.payloadSize := by
  induction drawn with
  | keyed key => exact ⟨rfl, rfl⟩
  | operation _ ih => exact ih
  | page _ ih => exact ih
  | payload _ id operation ih =>
    obtain ⟨pages, size⟩ := settings_payload _ id operation
    exact ⟨pages.trans ih.1, size.trans ih.2⟩

theorem page_lt (positive : 0 < g.pageCount) : g.page.1 < g.pageCount := by
  have below := Random.Stream.below_lt (UInt32.lt_iff_toNat_lt.mp positive) .narrow g.stream
  have fits : (g.stream.below .narrow g.pageCount.toNat).1 < UInt32.size := Nat.lt_trans below g.pageCount.toNat_lt
  rw [UInt32.lt_iff_toNat_lt]
  exact (UInt32.toNat_ofNat_of_lt' fits).symm ▸ below

/-- The filler ends where the settings say, but the tag goes on to its own end. -/
theorem length_payload (g : Generator) (id : UInt64) (operation : Log.Operation) :
    (g.payload id operation).1.length = if operation.isTagged then max g.payloadSize (tag id).length else 0 := by
  have written : (tag id ++ Text.Utf8.encode
      (g.stream.alphanumericText (g.payloadSize - (tag id).length)).1).length =
        max g.payloadSize (tag id).length := by
    rw [List.length_append, Text.Utf8.length_encode (Random.Stream.ascii_alphanumericText _ _),
      Random.Stream.length_alphanumericText]
    omega
  cases operation with
  | select | delete => rfl
  | insert | update => exact written

/-- What a generator makes for a store: a page that the store has, and a payload of this length. -/
structure MadeFor (c : Config) (t : Transaction) : Prop where
  inside : t.page < c.pageCount
  length : t.payload.length = if t.operation.isTagged then max c.payloadSize (tag t.id).length else 0

theorem DrawnFor.made (drawn : g.DrawnFor c) (accepted : c.validate = .ok ()) (id : UInt64) (thread : UInt32)
    (lsn : UInt64) : MadeFor c (g.transaction id thread lsn).1 := by
  obtain ⟨-, some, -⟩ := Config.validate_eq_ok_iff.mp accepted
  obtain ⟨pages, -⟩ := drawn.operation.settings
  obtain ⟨-, size⟩ := drawn.operation.page.settings
  rw [if_neg some] at pages
  constructor
  · have inside := page_lt (g := g.operation.2) (pages ▸ UInt32.pos_iff_ne_zero.mpr some)
    rw [pages] at inside
    exact inside
  · have length := length_payload g.operation.2.page.2 id g.operation.1
    rw [size] at length
    exact length

/-- It fits if its tag does. -/
theorem MadeFor.fits_iff {t : Transaction} (made : MadeFor c t) (accepted : c.validate = .ok ()) :
    t.payload.length ≤ c.pageSize ↔ (t.operation.isTagged = true → (tag t.id).length ≤ c.pageSize) := by
  obtain ⟨-, -, size, -⟩ := Config.validate_eq_ok_iff.mp accepted
  rw [made.length]
  cases t.operation.isTagged with
  | false => simp
  | true =>
    rw [if_pos rfl, Nat.max_le]
    exact ⟨fun both _ => both.2, fun tag => ⟨size, tag rfl⟩⟩

theorem MadeFor.large_iff {t : Transaction} (made : MadeFor c t) (accepted : c.validate = .ok ()) :
    c.pageSize < t.payload.length ↔ t.operation.isTagged = true ∧ c.pageSize < (tag t.id).length := by
  rw [← Decidable.not_iff_not, not_and, Nat.not_lt, Nat.not_lt]
  exact made.fits_iff accepted

theorem operation_eq (g : Generator) : g.operation.1 =
    Log.Operation.all.getD (g.stream.below .wide Log.Operation.all.length).1 .select := rfl

/-- The first operation of some generator is an insert. -/
theorem exists_insert (c : Config) : ∃ g, DrawnFor c g ∧ g.operation.1 = .insert := by
  have first : ((Random.Stream.ofSeed 1).below .wide Log.Operation.all.length).1 = 1 := by decide +kernel
  refine ⟨create (some 1) c.pageCount c.payloadSize, drawnFor_create c (some 1), ?_⟩
  rw [operation_eq]
  exact congrArg (Log.Operation.all.getD · .select) first

/-- Pages that hold the longest tag hold all that is generated, and smaller ones do not. -/
theorem all_fit_iff (accepted : c.validate = .ok ()) :
    (∀ g, DrawnFor c g → ∀ id thread lsn, (g.transaction id thread lsn).1.payload.length ≤ c.pageSize) ↔
      25 ≤ c.pageSize := by
  constructor
  · intro all
    obtain ⟨g, drawn, insert⟩ := exists_insert c
    have fits := all g drawn 0xFFFFFFFFFFFFFFFF 0 0
    rw [(drawn.made accepted _ 0 0).fits_iff accepted] at fits
    have room := fits (congrArg Log.Operation.isTagged insert)
    rwa [← length_tag_max]
  · intro room g drawn id thread lsn
    rw [(drawn.made accepted id thread lsn).fits_iff accepted]
    intro _
    exact Nat.le_trans (length_tag_le _) room

end Generator

end PageJournal
