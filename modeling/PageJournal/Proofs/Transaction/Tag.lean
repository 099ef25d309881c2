import Mathlib.Data.List.DropRight
import PageJournal.Page.Basic
import PageJournal.Proofs.Text.Utf8
import PageJournal.Proofs.Transaction.Generated

/-! Tags and padding. A tag is read from the start of a payload up to the first semicolon, so zero bytes behind
the payload hide nothing and add nothing. What was generated holds no zero byte, and its page gives it back. -/
namespace PageJournal

theorem dropTrailing_eq_rdropWhile {α : Type} (p : α → Bool) (l : List α) :
    dropTrailing p l = l.rdropWhile p := by
  induction l using List.reverseRecOn with
  | nil => rfl
  | append_singleton front a ih =>
    rw [List.rdropWhile_concat, ← ih]
    by_cases cut : p a = true
    · rw [if_pos cut]
      exact dropTrailing_append (by simpa using cut) front
    · rw [if_neg cut]
      exact dropTrailing_concat (by simpa using cut) front

theorem trimPadding_padded (pageSize : Nat) (payload : Bytes) :
    trimPadding (padded pageSize payload) = payload.rdropWhile (· == 0) := by
  have zeros : ∀ b ∈ List.replicate (pageSize - payload.length) (0 : UInt8), (b == 0) = true := by
    intro b mem
    rw [List.eq_of_mem_replicate mem]
    rfl
  rw [← dropTrailing_eq_rdropWhile]
  exact dropTrailing_append zeros payload

/-- What is cut is what padding puts back. -/
theorem padded_trimPadding (bytes : Bytes) : padded bytes.length (trimPadding bytes) = bytes := by
  obtain ⟨cut, whole, zeros⟩ := exists_append_dropTrailing (· == 0) bytes
  have replicated : cut = List.replicate cut.length 0 :=
    List.eq_replicate_of_mem fun b mem => eq_of_beq (zeros b mem)
  have missing : bytes.length - (trimPadding bytes).length = cut.length := by
    have total := congrArg List.length whole
    rw [List.length_append] at total
    unfold trimPadding
    omega
  rw [padded, missing, ← replicated]
  exact whole

/-- A page is all zero bytes if its payload is. -/
theorem padded_eq_zeros_iff {pageSize : Nat} {payload : Bytes} (fits : payload.length ≤ pageSize) :
    padded pageSize payload = List.replicate pageSize 0 ↔ ∀ b ∈ payload, b = 0 := by
  constructor
  · intro same b mem
    have there : b ∈ padded pageSize payload := List.mem_append_left _ mem
    rw [same] at there
    exact List.eq_of_mem_replicate there
  · intro zeros
    have own : payload = List.replicate payload.length 0 := List.eq_replicate_of_mem zeros
    rw [padded, own, List.length_replicate, List.replicate_append_replicate, Nat.add_sub_cancel' fits]

theorem rdropWhile_of_no_zero {bytes : Bytes} (none : 0 ∉ bytes) : bytes.rdropWhile (· == 0) = bytes := by
  rw [List.rdropWhile_eq_self_iff]
  intro some last
  exact none (eq_of_beq last ▸ List.getLast_mem some)

namespace Transaction

open Text

theorem tagEnd_not_mem {text : List Char} {id : UInt64} (read : word64 text = some id) :
    tagEnd ∉ Utf8.encode text := by
  have ascii := ascii_of_isNumeral (word64_eq_some.mp read)
  have end' : tagEnd = UInt8.ofNat (';').toNat := by decide
  rw [end', Utf8.byte_mem_encode ascii (by decide)]
  exact not_mem_numeral (mem_of_word64 read) (by decide) (by decide)

/-- A payload names a transaction if a numeral of it stands between the start and the end of a tag. -/
theorem ofTag?_eq_some {payload : Bytes} {id : UInt64} : ofTag? payload = some id ↔
    ∃ text rest, payload = tagStart ++ (Utf8.encode text ++ tagEnd :: rest) ∧ word64 text = some id := by
  simp only [ofTag?, Option.bind_eq_bind, Option.bind_eq_some_iff, List.isPrefixOf?_eq_some_iff_append_eq]
  constructor
  · rintro ⟨behind, rfl, read⟩
    split at read
    · cases read
    next short =>
    split at read
    · next text decoded =>
      have split := List.takeWhile_append_dropWhile (p := (· != tagEnd)) (l := behind)
      cases tail : behind.dropWhile (· != tagEnd) with
      | nil =>
        rw [tail, List.append_nil] at split
        exact absurd (congrArg List.length split) short
      | cons b rest =>
        have last : b = tagEnd := by
          have first := List.head?_dropWhile_not (· != tagEnd) behind
          simpa [tail] using first
        rw [tail, last, Utf8.decode_eq_ok.mp decoded] at split
        exact ⟨text, rest, congrArg (tagStart ++ ·) split.symm, read⟩
    · cases read
  · rintro ⟨text, rest, rfl, read⟩
    refine ⟨Utf8.encode text ++ tagEnd :: rest, rfl, ?_⟩
    have all : ∀ b ∈ Utf8.encode text, (b != tagEnd) = true := by
      intro b mem
      rw [bne_iff_ne]
      rintro rfl
      exact tagEnd_not_mem read mem
    have digits : (Utf8.encode text ++ tagEnd :: rest).takeWhile (· != tagEnd) = Utf8.encode text := by
      rw [List.takeWhile_append_of_pos all]
      simp
    have longer : (Utf8.encode text).length ≠ (Utf8.encode text ++ tagEnd :: rest).length := by simp
    rw [digits, if_neg longer, Utf8.decode_encode]
    exact read

/-- Bytes without the end of a tag change nothing behind a payload. -/
theorem ofTag?_append (payload : Bytes) {tail : Bytes} (none : tagEnd ∉ tail) :
    ofTag? (payload ++ tail) = ofTag? payload := by
  ext id
  rw [ofTag?_eq_some, ofTag?_eq_some]
  constructor
  · rintro ⟨text, rest, whole, read⟩
    rw [← List.append_assoc] at whole
    obtain ⟨more, -, cut⟩ | ⟨kept, short, cut⟩ := List.append_eq_append_iff.mp whole
    · exact absurd (cut ▸ List.mem_append_right more List.mem_cons_self) none
    cases kept with
    | nil =>
      have same : tail = tagEnd :: rest := cut.symm
      exact absurd (same ▸ List.mem_cons_self) none
    | cons b kept =>
      obtain ⟨rfl, -⟩ := List.cons.inj cut
      exact ⟨text, kept, by rw [short, List.append_assoc], read⟩
  · rintro ⟨text, rest, rfl, read⟩
    exact ⟨text, rest ++ tail, by simp only [List.append_assoc, List.cons_append], read⟩

theorem ofTag?_padded (pageSize : Nat) (payload : Bytes) : ofTag? (padded pageSize payload) = ofTag? payload := by
  refine ofTag?_append payload fun mem => ?_
  have zero : tagEnd = 0 := List.eq_of_mem_replicate mem
  exact absurd zero (by decide)

theorem ofTag?_tag (id : UInt64) (rest : Bytes) : ofTag? (tag id ++ rest) = some id := by
  rw [ofTag?_eq_some]
  exact ⟨decimal id.toNat, rest, by simp [tag], word64_decimal id⟩

theorem zero_not_mem_tag (id : UInt64) : 0 ∉ tag id := by
  have start : 0 ∉ tagStart := by decide
  have last : (0 : UInt8) ≠ tagEnd := by decide
  have digits : 0 ∉ Utf8.encode (decimal id.toNat) := by
    have numeral := isNumeral_decimal id.toNat
    have null : (0 : UInt8) = UInt8.ofNat ('\x00').toNat := by decide
    rw [null, Utf8.byte_mem_encode (ascii_of_isNumeral numeral) (by decide)]
    exact not_mem_numeral (mem_of_isNumeral numeral) (by decide) (by decide)
  simp [tag, start, last, digits]

end Transaction

namespace Generator

open Transaction

variable (g : Generator) (id : UInt64) {operation : Log.Operation}

theorem payload_of_tagged (tagged : operation.isTagged = true) : (g.payload id operation).1 =
    tag id ++ Text.Utf8.encode (g.stream.alphanumericText (g.payloadSize - (tag id).length)).1 := by
  cases operation with
  | select | delete => cases tagged
  | insert | update => rfl

theorem ofTag?_payload (tagged : operation.isTagged = true) : ofTag? (g.payload id operation).1 = some id := by
  rw [payload_of_tagged g id tagged]
  exact ofTag?_tag id _

theorem zero_not_mem_payload (tagged : operation.isTagged = true) : 0 ∉ (g.payload id operation).1 := by
  rw [payload_of_tagged g id tagged, List.mem_append, not_or]
  refine ⟨zero_not_mem_tag id, ?_⟩
  have null : (0 : UInt8) = UInt8.ofNat ('\x00').toNat := by decide
  rw [null, Text.Utf8.byte_mem_encode (Random.Stream.ascii_alphanumericText _ _) (by decide)]
  exact fun mem => absurd (Random.Stream.mem_alphanumericText _ _ _ mem) (by decide)

end Generator

namespace Page

open Transaction

theorem ofPayload_of_fits (id : PageId) {payload : Bytes} {pageSize : Nat} (fits : payload.length ≤ pageSize) :
    ofPayload id payload pageSize = .ok ⟨id, padded pageSize payload, true⟩ :=
  if_neg (Nat.not_lt.mpr fits)

theorem payload_padded (id : PageId) (payload : Bytes) (pageSize : Nat) (dirty : Bool) :
    Page.payload ⟨id, padded pageSize payload, dirty⟩ = payload.rdropWhile (· == 0) :=
  trimPadding_padded pageSize payload

/-- Cutting the padding and padding again is the same page. -/
theorem ofPayload_trimPadding (id : PageId) (bytes : Bytes) :
    ofPayload id (trimPadding bytes) bytes.length = .ok ⟨id, bytes, true⟩ := by
  have shorter : (trimPadding bytes).length ≤ bytes.length := by
    rw [trimPadding, dropTrailing_eq_rdropWhile]
    exact (List.rdropWhile_prefix _ bytes).length_le
  rw [ofPayload_of_fits id shorter, padded_trimPadding]

/-- The page of a payload that was generated is full, gives the payload back and names its transaction. -/
structure Bears (id : UInt64) (payload : Bytes) (pageSize : Nat) (page : Page) : Prop where
  full : page.bytes.length = pageSize
  given : page.payload = payload
  named : ofTag? page.bytes = some id
  named_payload : ofTag? page.payload = some id

theorem bears_generated (g : Generator) (id : UInt64) {operation : Log.Operation}
    (tagged : operation.isTagged = true) (page : PageId) {pageSize : Nat}
    (fits : (g.payload id operation).1.length ≤ pageSize) :
    Bears id (g.payload id operation).1 pageSize ⟨page, padded pageSize (g.payload id operation).1, true⟩ := by
  have same : Page.payload ⟨page, padded pageSize (g.payload id operation).1, true⟩ =
      (g.payload id operation).1 := by
    rw [payload_padded, rdropWhile_of_no_zero (Generator.zero_not_mem_payload g id tagged)]
  constructor
  · exact length_padded fits
  · exact same
  · rw [ofTag?_padded, Generator.ofTag?_payload g id tagged]
  · rw [same, Generator.ofTag?_payload g id tagged]

/-- A payload that was generated goes onto a page and comes back, tag and all. Every page comes back from what
is left of it without its padding. Every payload that fits comes back without the zero bytes at its end. -/
theorem payloads_come_back :
    (∀ (g : Generator) (id : UInt64) (operation : Log.Operation) (page : PageId) (pageSize : Nat),
      operation.isTagged = true → (g.payload id operation).1.length ≤ pageSize →
        ofTag? (g.payload id operation).1 = some id ∧
          ∃ made, ofPayload page (g.payload id operation).1 pageSize = .ok made ∧
            Bears id (g.payload id operation).1 pageSize made) ∧
    (∀ (page : PageId) (bytes : Bytes),
      ofPayload page (trimPadding bytes) bytes.length = .ok ⟨page, bytes, true⟩) ∧
    (∀ (page : PageId) (payload : Bytes) (pageSize : Nat), payload.length ≤ pageSize →
      ∃ made, ofPayload page payload pageSize = .ok made ∧
        made.payload = payload.rdropWhile (· == 0)) := by
  refine ⟨?_, ofPayload_trimPadding, ?_⟩
  · intro g id operation page pageSize tagged fits
    exact ⟨Generator.ofTag?_payload g id tagged, _, ofPayload_of_fits page fits,
      bears_generated g id tagged page fits⟩
  · intro page payload pageSize fits
    exact ⟨_, ofPayload_of_fits page fits, payload_padded page payload pageSize true⟩

/-- The longest tag without filler fills a page of its size, and a payload of zero bytes comes back empty. -/
theorem payloads_come_back_full :
    (∃ made, ofPayload 0 ((Generator.create (some 1) 1 0).payload 0xFFFFFFFFFFFFFFFF .insert).1 25 = .ok made ∧
      Bears 0xFFFFFFFFFFFFFFFF (tag 0xFFFFFFFFFFFFFFFF) 25 made) ∧
    ∃ made, ofPayload 0 [7, 0, 0] 4 = .ok made ∧ made.payload = [7] := by
  obtain ⟨generated, -, padding⟩ := payloads_come_back
  obtain ⟨-, bears⟩ := generated (.create (some 1) 1 0) 0xFFFFFFFFFFFFFFFF .insert 0 25 rfl (by decide +kernel)
  have bare : ((Generator.create (some 1) 1 0).payload 0xFFFFFFFFFFFFFFFF .insert).1 =
      tag 0xFFFFFFFFFFFFFFFF := by decide +kernel
  exact ⟨bare ▸ bears, padding 0 [7, 0, 0] 4 (by decide)⟩

end Page

end PageJournal
