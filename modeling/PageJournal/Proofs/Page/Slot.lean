import Mathlib.Data.String.Basic
import PageJournal.Proofs.Page.Housed
import PageJournal.Proofs.Text.Numeral

/-! The names of a page store's files. Every page has one for its bytes and one where new bytes gather; no
two of these names are the same, and each is short enough for a directory. -/
namespace PageJournal

namespace PageName

theorem toList_render (page : PageId) :
    (render page).toList = "page_".toList ++ Text.decimal page.toNat ++ ".dbp".toList := by
  have digits : (toString page).toList = Text.decimal page.toNat := String.toList_ofList
  simp only [render, Volume.toString_text, String.toList_append, digits]

theorem toList_temporary (name : String) : (temporary name).toList = name.toList ++ ".tmp".toList := by
  simp [temporary]

theorem render_injective {p q : PageId} (same : render p = render q) : p = q := by
  have texts := congrArg String.toList same
  rw [toList_render, toList_render, List.append_left_inj, List.append_right_inj] at texts
  have read := Text.word32_decimal p
  rw [texts, Text.word32_decimal q] at read
  exact (Option.some.inj read).symm

theorem temporary_injective {a b : String} (same : temporary a = temporary b) : a = b := by
  have texts := congrArg String.toList same
  rw [toList_temporary, toList_temporary, List.append_left_inj] at texts
  exact String.toList_inj.mp texts

theorem temporary_ne_render (name : String) (page : PageId) : temporary name ≠ render page := by
  intro same
  have texts := congrArg String.toList same
  rw [toList_temporary, toList_render] at texts
  have ends : ".tmp".toList = ".dbp".toList := List.append_inj_right' texts (by decide)
  simp at ends

theorem splitExtension_append {stem extension : List Char} (named : stem ≠ [])
    (plain : '.' ∉ extension) :
    splitExtension (stem ++ '.' :: extension) = (stem, some extension) := by
  have behind : ((stem ++ '.' :: extension).reverse.takeWhile (· != '.')).reverse = extension := by
    rw [List.reverse_append, List.reverse_cons, List.append_assoc, List.takeWhile_append_of_pos]
    · simp
    · intro c mem
      rw [bne_iff_ne]
      rintro rfl
      exact plain (List.mem_reverse.mp mem)
  have front : (stem ++ '.' :: extension).take
      ((stem ++ '.' :: extension).length - extension.length - 1) = stem := by
    have length : (stem ++ '.' :: extension).length - extension.length - 1 = stem.length := by
      simp only [List.length_append, List.length_cons]
      omega
    rw [length, List.take_left]
  have kept : stem.isEmpty = false := List.isEmpty_eq_false_iff.mpr named
  unfold splitExtension
  simp only [behind, front, kept, Bool.false_eq_true, if_false]

theorem splitExtension_render (page : PageId) : splitExtension (render page).toList =
    ("page_".toList ++ Text.decimal page.toNat, some "dbp".toList) := by
  have named : "page_".toList ++ Text.decimal page.toNat ≠ [] :=
    List.append_ne_nil_of_left_ne_nil (by decide) _
  rw [toList_render]
  exact splitExtension_append named (by decide)

theorem isTemporary_render (page : PageId) : isTemporary (render page) = false := by
  have other : (some "dbp".toList == some "tmp".toList) = false := by decide
  rw [isTemporary, splitExtension_render, other]

theorem isTemporary_temporary (page : PageId) : isTemporary (temporary (render page)) = true := by
  have named : (render page).toList ≠ [] := by
    rw [toList_render]
    simp
  have split : splitExtension (temporary (render page)).toList =
      ((render page).toList, some "tmp".toList) := by
    rw [toList_temporary]
    exact splitExtension_append named (by decide)
  rw [isTemporary, split]
  exact beq_self_eq_true _

theorem parse?_render (page : PageId) : parse? (render page) = some page := by
  have stem : "page_".toList.isPrefixOf? ("page_".toList ++ Text.decimal page.toNat) =
    some (Text.decimal page.toNat) := rfl
  unfold parse?
  rw [splitExtension_render]
  simp only [if_true, stem, Option.bind_eq_bind, Option.bind_some, Text.word32_decimal]

theorem utf8ByteSize_ascii {text : String} (ascii : Text.Ascii text.toList) :
    text.utf8ByteSize = text.toList.length := by
  rw [← String.ofList_toList (s := text), String.utf8ByteSize_ofList, String.toList_ofList]
  generalize text.toList = letters at ascii
  induction letters with
  | nil => rfl
  | cons c rest ih =>
    have small := ascii c List.mem_cons_self
    have one : c.utf8Size = 1 := Char.utf8Size_eq_one_iff.mpr (Nat.le_of_lt_succ small)
    rw [String.utf8Len_cons, ih fun d mem => ascii d (List.mem_cons_of_mem c mem), one, List.length_cons]

theorem ascii_render (page : PageId) : Text.Ascii (render page).toList := by
  rw [toList_render]
  refine Text.Ascii.append (Text.Ascii.append (by decide) fun c mem => ?_) (by decide)
  have digit := Text.toNat_lt_of_isDigit (Text.isDigit_of_mem_decimal mem)
  omega

theorem length_render (page : PageId) : (render page).toList.length ≤ 19 := by
  have digits : (Text.decimal page.toNat).length ≤ 10 :=
    (Nat.length_toDigits_le_iff (by decide) (by decide)).mpr (by have := page.toNat_lt; omega)
  simp only [toList_render, List.length_append]
  have ends : "page_".toList.length = 5 ∧ ".dbp".toList.length = 4 := ⟨rfl, rfl⟩
  omega

end PageName

/-- A file that belongs to a page. -/
inductive Slot where
  /-- It holds the page. -/
  | page (page : PageId)
  /-- New bytes of the page gather in it. -/
  | gathering (page : PageId)
  deriving DecidableEq

namespace Slot

def name : Slot → String
  | page p => PageName.render p
  | gathering p => PageName.temporary (PageName.render p)

theorem name_injective {x y : Slot} (same : x.name = y.name) : x = y := by
  cases x with
  | page p =>
    cases y with
    | page q => exact congrArg page (PageName.render_injective same)
    | gathering q => exact absurd same.symm (PageName.temporary_ne_render _ p)
  | gathering p =>
    cases y with
    | page q => exact absurd same (PageName.temporary_ne_render _ q)
    | gathering q =>
      exact congrArg gathering (PageName.render_injective (PageName.temporary_injective same))

theorem isName (x : Slot) : Volume.IsName x.name := by
  cases x with
  | page p => exact Volume.isName_page p
  | gathering p => exact Volume.isName_temporary p

theorem short (x : Slot) : x.name.utf8ByteSize ≤ Route.maxName := by
  cases x with
  | page p =>
    have length := PageName.length_render p
    rw [name, PageName.utf8ByteSize_ascii (PageName.ascii_render p)]
    exact Nat.le_trans length (by decide)
  | gathering p =>
    have length := PageName.length_render p
    have ascii : Text.Ascii (PageName.temporary (PageName.render p)).toList := by
      rw [PageName.toList_temporary]
      exact Text.Ascii.append (PageName.ascii_render p) (by decide)
    rw [name, PageName.utf8ByteSize_ascii ascii, PageName.toList_temporary, List.length_append]
    exact Nat.le_trans (Nat.add_le_add_right length _) (by decide)

end Slot

end PageJournal
