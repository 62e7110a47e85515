import ScreenMarkup.Markup.Document
import ScreenMarkup.Proofs.Markup.Assembling
import ScreenMarkup.Proofs.NameTable
import ScreenMarkup.Proofs.Text.Cutting

/-!
# What a document can be

Whatever the text, the elements read from it have lowercase names, values
that can be quoted, and trimmed text without a `<`.
-/

set_option autoImplicit false

namespace ScreenMarkup

open Text

namespace Markup

/-! ## Names and values -/

/-- Lowercase letters, digits, `-`, `_` and `:`. -/
def isLowerNameChar (c : Char) : Bool :=
  c.isLower || c.isDigit || c = '-' || c = '_' || c = ':'

def IsName (name : String) : Prop := name ≠ "" ∧ ∀ c ∈ name.toList, isLowerNameChar c = true

inductive Quoting where
  | double | single | bare
deriving DecidableEq

/-- A quoted value does not contain its quote. A bare one is not empty, starts with no quote, and
contains nothing that ends it. -/
def Quoting.Admits : Quoting → String → Prop
  | double, v => '"' ∉ v.toList
  | single, v => '\'' ∉ v.toList
  | bare, v => v ≠ "" ∧ v.toList.head? ≠ some '"' ∧ v.toList.head? ≠ some '\'' ∧
      ∀ c ∈ v.toList, isBareEnd c = false

def IsValue (v : String) : Prop := ∃ q : Quoting, q.Admits v

/-- The tag that ends an element. -/
def closingTag (tag : String) : List Char := "</".toList ++ tag.toList ++ ['>']

/-- The text of an element that is not verbatim. -/
def IsText (text : String) : Prop := '<' ∉ text.toList ∧ trim text.toList = text.toList

end Markup

open Markup

/-- The element itself is as a document can have it, whatever stands below it. -/
structure Element.Proper (e : Element) : Prop where
  tag : IsName e.tag
  attrs : ∀ a ∈ e.attrs.entries, IsName a.1 ∧ IsValue a.2
  text : isVerbatim e.tag = false → IsText e.text
  verbatim : isVerbatim e.tag = true →
    e.children = [] ∧ contains (closingTag e.tag) e.text.toList = false

namespace Markup

/-- Names are read in any case and kept in lowercase. -/
theorem isNameChar_eq (c : Char) : isNameChar c = (c.isUpper || isLowerNameChar c) := by
  have halpha : c.isAlpha = (c.isUpper || c.isLower) := rfl
  simp only [isNameChar, isLowerNameChar, Char.isAlphanum, halpha, Bool.or_assoc]

theorem isLowerNameChar_toLower {c : Char} (hc : isNameChar c = true) :
    isLowerNameChar c.toLower = true := by
  unfold Char.toLower
  split
  · next hu =>
    have hlower (d : Char) (hd : d.val = c.val + ('a'.val - 'A'.val)) : d.isLower = true := by
      obtain ⟨h₁, h₂⟩ := hu
      rw [ge_iff_le, UInt32.le_iff_toNat_le] at h₁
      rw [UInt32.le_iff_toNat_le] at h₂
      change 65 ≤ c.val.toNat at h₁
      change c.val.toNat ≤ 90 at h₂
      have hsum : d.val.toNat = (c.val.toNat + 32) % 2 ^ 32 := by
        rw [hd, UInt32.toNat_add]
        rfl
      have hfrom : 97 ≤ d.val.toNat := by omega
      have hto : d.val.toNat ≤ 122 := by omega
      apply Bool.and_eq_true_iff.mpr
      constructor
      · exact decide_eq_true (UInt32.le_iff_toNat_le.mpr hfrom)
      · exact decide_eq_true (UInt32.le_iff_toNat_le.mpr hto)
    rw [isLowerNameChar, hlower _ rfl]
    rfl
  · next hu =>
    have hupper : c.isUpper = false := decide_eq_false hu
    rw [isNameChar_eq, hupper, Bool.false_or] at hc
    exact hc

theorem lowered_isName {s : List Char} (hs : s.takeWhile isNameChar ≠ []) :
    IsName (lowered (s.takeWhile isNameChar)) := by
  constructor
  · intro h
    apply hs
    have hnil := congrArg String.toList h
    rw [lowered, String.toList_ofList] at hnil
    exact List.map_eq_nil_iff.mp hnil
  · intro c hc
    rw [lowered, String.toList_ofList] at hc
    obtain ⟨d, hd, rfl⟩ := List.mem_map.mp hc
    exact isLowerNameChar_toLower (List.mem_takeWhile_imp hd)

theorem isValue_of_not_mem {v : List Char} {c : Char} (hc : c = '"' ∨ c = '\'') (hv : c ∉ v) :
    IsValue (String.ofList v) := by
  rcases hc with rfl | rfl
  · exact ⟨.double, by rwa [Quoting.Admits, String.toList_ofList]⟩
  · exact ⟨.single, by rwa [Quoting.Admits, String.toList_ofList]⟩

theorem isValue_empty : IsValue "" := ⟨.double, by simp [Quoting.Admits]⟩

theorem readValue_isValue (s : List Char) : IsValue (readValue s).1 := by
  unfold readValue
  split
  · exact isValue_empty
  · next c s =>
    split
    · next hq =>
      apply isValue_of_not_mem hq
      intro hc
      simpa using List.mem_takeWhile_imp hc
    · next hq =>
      by_cases hend : isBareEnd c = true
      · rw [List.takeWhile_cons_of_neg (by simp [hend])]
        exact isValue_empty
      · rw [List.takeWhile_cons_of_pos (by simp [hend])]
        refine ⟨.bare, ?_, ?_, ?_, ?_⟩
        · intro h
          have hnil := congrArg String.toList h
          rw [String.toList_ofList] at hnil
          cases hnil
        · rw [String.toList_ofList]
          intro h
          exact hq (.inl (Option.some.inj h))
        · rw [String.toList_ofList]
          intro h
          exact hq (.inr (Option.some.inj h))
        · intro d hd
          rw [String.toList_ofList] at hd
          rcases List.mem_cons.mp hd with rfl | hd
          · simpa using hend
          · simpa using List.mem_takeWhile_imp hd

theorem readAssigned_isValue (s : List Char) : IsValue (readAssigned s).1 := by
  unfold readAssigned
  split
  · exact readValue_isValue _
  · exact ⟨.double, by simp [Quoting.Admits]⟩

theorem readAttrs_proper (s : List Char) :
    ∀ a ∈ (readAttrs s).1, IsName a.1 ∧ IsValue a.2 := by
  fun_induction readAttrs s with
  | case1 => simp
  | case2 => simp
  | case3 s c r h hend hname name assigned more ih =>
    intro a ha
    rcases List.mem_cons.mp ha with rfl | ha
    · refine ⟨lowered_isName ?_, readAssigned_isValue _⟩
      rw [List.takeWhile_cons_of_pos hname]
      exact List.cons_ne_nil _ _
    · exact ih a ha
  | case4 s c r h hend hname ih => exact ih

end Markup

namespace Markup

/-! ## Lexemes -/

/-- What a lexeme says of an element is proper. -/
def Lexeme.Proper : Lexeme → Prop
  | opening tag attrs =>
    IsName tag ∧ (∀ a ∈ attrs.entries, IsName a.1 ∧ IsValue a.2) ∧ isVerbatim tag = false
  | whole tag attrs body => (Element.mk tag attrs body [] "").Proper
  | text t => IsText t
  | closing | skipped => True

theorem isText_empty : IsText "" := ⟨by simp, rfl⟩

theorem closingTag_ne_nil (tag : String) : closingTag tag ≠ [] := by
  simp [closingTag]

theorem readVerbatim_fst (tag : String) (s : List Char) :
    contains (closingTag tag) (readVerbatim tag s).1 = false := by
  unfold readVerbatim
  cases h : cut? ("</".toList ++ tag.toList ++ ['>']) s with
  | none =>
    show (cut? (closingTag tag) s).isSome = false
    rw [closingTag, h]
    rfl
  | some parts => exact contains_cut?_fst (closingTag_ne_nil tag) h

theorem readTagEnd_proper {tag : String} {attrs : NameTable} (ht : IsName tag)
    (ha : ∀ a ∈ attrs.entries, IsName a.1 ∧ IsValue a.2) (s : List Char) :
    (readTagEnd tag attrs s).1.Proper := by
  have hempty : (Element.mk tag attrs "" [] "").Proper :=
    ⟨ht, ha, fun _ => isText_empty, fun _ => ⟨rfl, contains_nil (closingTag_ne_nil tag)⟩⟩
  unfold readTagEnd
  split
  · exact hempty
  · exact hempty
  · extract_lets body
    split
    · next hv =>
      exact ⟨ht, ha, fun h => absurd (hv.symm.trans h) (by decide), fun _ => ⟨rfl, by
        show contains (closingTag tag) (String.ofList _).toList = false
        rw [String.toList_ofList]
        exact readVerbatim_fst tag body⟩⟩
    · next hv => exact ⟨ht, ha, Bool.not_eq_true _ ▸ hv⟩

theorem readStart_proper (s : List Char) : (readStart s).1.Proper := by
  unfold readStart
  split
  · trivial
  · next hn =>
    apply readTagEnd_proper (lowered_isName hn)
    intro a ha
    exact readAttrs_proper _ a (NameTable.mem_ofList ha)

theorem readTag_proper (s : List Char) : (readTag s).1.Proper := by
  unfold readTag
  split
  · trivial
  · trivial
  · trivial
  · trivial
  · exact readStart_proper _

theorem next_proper (c : Char) (s : List Char) : (next c s).1.Proper := by
  unfold next
  split
  · trivial
  · split
    · exact readTag_proper s
    · next hc =>
      constructor
      · rw [String.toList_ofList]
        intro h
        rcases List.mem_cons.mp ((trim_sublist _).subset h) with h | h
        · exact hc h.symm
        · simpa using List.mem_takeWhile_imp h
      · rw [String.toList_ofList]
        exact (tight_trim _).trim

theorem scan_proper (s : List Char) : ∀ l ∈ scan s, l.1.Proper := by
  fun_induction scan s with
  | case1 => simp
  | case2 c s ih =>
    intro l hl
    rcases List.mem_cons.mp hl with rfl | hl
    · exact next_proper c s
    · exact ih l hl

end Markup

/-! ## Elements -/

namespace Element

/-- What can stand in a document: a proper element that keeps its source only as a button. -/
def Read (e : Element) : Prop := e.Proper ∧ (e.tag ≠ "button" → e.inner = "")

end Element

namespace Markup

/-- What has been read of an element is proper. -/
structure Unclosed.Proper (u : Unclosed) : Prop where
  tag : IsName u.tag
  attrs : ∀ a ∈ u.attrs.entries, IsName a.1 ∧ IsValue a.2
  verbatim : isVerbatim u.tag = false
  text : IsText u.text

theorem IsText.append {s t : String} (hs : IsText s) (ht : IsText t) : IsText (s ++ t) := by
  constructor
  · rw [String.toList_append]
    intro h
    rcases List.mem_append.mp h with h | h
    · exact hs.1 h
    · exact ht.1 h
  · rw [String.toList_append]
    exact (((trim_eq_self_iff _).mp hs.2).append ((trim_eq_self_iff _).mp ht.2)).trim

namespace Unclosed.Proper

variable {u : Unclosed}

theorem addText (hu : u.Proper) {t : String} (ht : IsText t) : (u.addText t).Proper :=
  { hu with text := hu.text.append ht }

theorem close (hu : u.Proper) (stop : List Char) : (u.close stop).Read := by
  refine ⟨⟨hu.tag, hu.attrs, fun _ => hu.text, fun h => ?_⟩, fun hb => ?_⟩
  · exact absurd (hu.verbatim.symm.trans h) (by decide)
  · exact if_neg fun h => hb (of_decide_eq_true h)

end Unclosed.Proper

theorem keeps_read (text : List Char) : Keeps text Element.Read (fun u _ => u.Proper) where
  opening h := by
    obtain ⟨ht, ha, hv⟩ := scan_proper text _ h
    exact ⟨ht, ha, hv, isText_empty⟩
  whole h := ⟨scan_proper text _ h, fun _ => rfl⟩
  text h _ hu := hu.addText (scan_proper text _ h)
  pass hu := hu
  child _ hu _ := { hu with }
  close _ hu := hu.close _

/-- Every element of every document is proper and keeps its source only as a button. -/
theorem parse_read (text : String) : ∀ e ∈ (parse text).descendants, e.Read :=
  (keeps_read text.toList).descendants

end Markup
end ScreenMarkup
