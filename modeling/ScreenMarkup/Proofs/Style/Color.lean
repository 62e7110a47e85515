import Mathlib.Data.List.TakeWhile
import ScreenMarkup.Proofs.Numeric.Digits
import ScreenMarkup.Style.Color

/-!
# The grammar of colors

A color is written by its name, by six hexadecimal digits, or by three of them
each of which stands for two, and anything else is black. But in a stylesheet a
plus sign at the front is taken for the digit `0`, so colors follow the grammar
just where such a sign makes no difference. Attributes agree with stylesheets
on all that is written in digits.
-/

set_option autoImplicit false

namespace ScreenMarkup.Color
open Text Numeric

variable {s : List Char} {k m n : Nat}

/-! ## The grammar -/

/-- A run of hexadecimal digits of a given length. -/
def IsHex (length : Nat) (s : List Char) : Prop :=
  s.length = length ∧ ∀ c ∈ s, isHexDigit c = true

instance (length : Nat) (s : List Char) : Decidable (IsHex length s) :=
  decidable_of_iff (s.length = length ∧ s.all isHexDigit = true)
    (and_congr_right fun _ => List.all_eq_true)

inductive Written : List Char → Nat → Prop
  | name {name : String} {rgb : Nat} (hn : (name, rgb) ∈ named) : Written name.toList rgb
  | long {s : List Char} (hs : IsHex 6 s) : Written s (hexValue s)
  | short {a b c : Char} (hs : IsHex 3 [a, b, c]) :
      Written [a, b, c] (hexValue [a, a, b, b, c, c])

/-- The color that a text stands for. -/
def Means (s : List Char) (n : Nat) : Prop := Written s n ∨ (∀ m, ¬ Written s m) ∧ n = 0

/-- The text with the digit `0` in place of a plus sign at its front. -/
def zeroed : List Char → List Char
  | '+' :: s => '0' :: s
  | s => s

/-- A plus sign before two or five digits which are not all zero. -/
def Signed (s : List Char) : Prop :=
  ∃ ds, s = '+' :: ds ∧ (IsHex 2 ds ∨ IsHex 5 ds) ∧ hexValue ds ≠ 0

/-! ## Names -/

theorem lookup_eq_some :
    named.lookup (String.ofList s) = some n ↔ ∃ name, (name, n) ∈ named ∧ name.toList = s := by
  constructor
  · intro h
    obtain ⟨before, after, he, -⟩ := List.lookup_eq_some_iff.mp h
    exact ⟨String.ofList s, by simp [he], String.toList_ofList⟩
  · rintro ⟨name, hn, rfl⟩
    have hall : ∀ p ∈ named, named.lookup p.1 = some p.2 := by decide
    rw [String.ofList_toList]
    exact hall _ hn

/-- No name could be taken for digits, with a plus sign or without one. -/
theorem name_not_hex {name : String} (hn : (name, n) ∈ named) :
    ¬ ∀ c ∈ unsigned name.toList, isHexDigit c = true := by
  have hall : ∀ p ∈ named, ¬ (unsigned p.1.toList).all isHexDigit = true := by decide
  rw [← List.all_eq_true]
  exact hall _ hn

theorem lookup_of_hex (hs : ∀ c ∈ unsigned s, isHexDigit c = true) :
    named.lookup (String.ofList s) = none := by
  cases hlookup : named.lookup (String.ofList s) with
  | none => rfl
  | some n =>
    obtain ⟨name, hn, rfl⟩ := lookup_eq_some.mp hlookup
    exact absurd hs (name_not_hex hn)

/-! ## Digits -/

theorem IsHex.unsigned (hs : IsHex k s) : unsigned s = s :=
  unsigned_of_run (by decide) hs.2 (.inl rfl)

theorem isHex_cons {c : Char} :
    IsHex (k + 1) (c :: s) ↔ isHexDigit c = true ∧ IsHex k s := by
  simp only [IsHex, List.length_cons, Nat.add_right_cancel_iff, List.forall_mem_cons]
  exact and_left_comm

/-- To double the digits is to write each of them twice. -/
theorem double_hexValue {a b c : Char} (hs : IsHex 3 [a, b, c]) :
    double (hexValue [a, b, c]) = hexValue [a, a, b, b, c, c] := by
  have ha := hexDigitValue_lt (hs.2 a (by simp))
  have hb := hexDigitValue_lt (hs.2 b (by simp))
  have hc := hexDigitValue_lt (hs.2 c (by simp))
  simp only [double, hexValue, List.foldl_cons, List.foldl_nil]
  omega

theorem double_eq_zero_iff (hn : n < 0x1000) : double n = 0 ↔ n = 0 := by
  unfold double
  omega

theorem byteSize_of_hex (hs : ∀ c ∈ s, isHexDigit c = true) : byteSize s = s.length := by
  induction s with
  | nil => rfl
  | cons c s ih =>
    have hc := utf8Size_of_isHexDigit (hs c List.mem_cons_self)
    have hrest := ih fun d hd => hs d (List.mem_cons_of_mem c hd)
    show c.utf8Size + byteSize s = s.length + 1
    rw [hc, hrest, Nat.add_comm]

/-! ## Reading a color -/

/-- What a stylesheet reads behind the `#`. -/
def ofBody (s : List Char) : Nat :=
  match named.lookup (String.ofList s) with
  | some rgb => rgb
  | none =>
    if byteSize s = 6 then (readHex? s).getD 0
    else if byteSize s = 3 then ((readHex? s).map double).getD 0
    else 0

theorem ofStylesheet_eq (value : String) : ofStylesheet value = ofBody (body value) := rfl

theorem ofBody_name {name : String} (hn : (name, n) ∈ named) : ofBody name.toList = n := by
  rw [ofBody, lookup_eq_some.mpr ⟨name, hn, rfl⟩]

theorem IsHex.readHex?_eq (hs : IsHex k s) (hk : 0 < k) : readHex? s = some (hexValue s) := by
  have hne : s ≠ [] := List.ne_nil_of_length_pos (hs.1 ▸ hk)
  exact readHex?_eq_some.mpr ⟨s, .inl rfl, hne, hs.2, rfl⟩

theorem IsHex.ofBody_eq (hs : IsHex k s) (hk : 0 < k) :
    ofBody s = if k = 6 then hexValue s else if k = 3 then double (hexValue s) else 0 := by
  have hlookup : named.lookup (String.ofList s) = none :=
    lookup_of_hex (hs.unsigned.symm ▸ hs.2)
  rw [ofBody, hlookup, byteSize_of_hex hs.2, hs.1, hs.readHex?_eq hk]
  rfl

theorem Written.ofBody_eq (h : Written s n) : ofBody s = n := by
  cases h with
  | name hn => exact ofBody_name hn
  | long hs => exact hs.ofBody_eq (by decide)
  | short hs => exact (hs.ofBody_eq (by decide)).trans (double_hexValue hs)

theorem Means.unique (hm : Means s m) (hn : Means s n) : m = n := by
  rcases hm with hm | ⟨hnone, rfl⟩
  · rcases hn with hn | ⟨hnone, -⟩
    · exact hm.ofBody_eq.symm.trans hn.ofBody_eq
    · exact absurd hm (hnone m)
  · rcases hn with hn | ⟨-, rfl⟩
    · exact absurd hn (hnone n)
    · rfl

theorem IsHex.written (hs : IsHex 3 s) : Written s (double (hexValue s)) := by
  match s, hs.1 with
  | [a, b, c], _ =>
    rw [double_hexValue hs]
    exact .short hs

/-- Without a plus sign at its front a text is read as what it means. -/
theorem means_ofBody (hplus : ∀ ds, s ≠ '+' :: ds) : Means s (ofBody s) := by
  by_cases hwritten : ∃ n, Written s n
  · obtain ⟨n, hn⟩ := hwritten
    rw [hn.ofBody_eq]
    exact .inl hn
  · have hnone : ∀ n, ¬ Written s n := fun n hn => hwritten ⟨n, hn⟩
    refine .inr ⟨hnone, ?_⟩
    have hlookup : named.lookup (String.ofList s) = none := by
      cases hlookup : named.lookup (String.ofList s) with
      | none => rfl
      | some n =>
        obtain ⟨name, hn, rfl⟩ := lookup_eq_some.mp hlookup
        exact absurd (.name hn) (hnone n)
    rw [ofBody, hlookup]
    cases hread : readHex? s with
    | none => simp
    | some n =>
      obtain ⟨ds, rfl | rfl, -, hds, rfl⟩ := readHex?_eq_some.mp hread
      · have hlong : s.length ≠ 6 := fun h => hnone _ (.long ⟨h, hds⟩)
        have hshort : s.length ≠ 3 := fun h => hnone _ (IsHex.written ⟨h, hds⟩)
        simp only [byteSize_of_hex hds, hlong, hshort, if_false]
      · exact absurd rfl (hplus ds)

/-! ## A plus sign at the front -/

theorem lookup_sign {c : Char} (hc : c = '+' ∨ c = '0') (ds : List Char) :
    named.lookup (String.ofList (c :: ds)) = none := by
  cases hlookup : named.lookup (String.ofList (c :: ds)) with
  | none => rfl
  | some n =>
    obtain ⟨name, hn, hs⟩ := lookup_eq_some.mp hlookup
    have hall : ∀ p ∈ named, p.1.toList.head? ≠ some '+' ∧ p.1.toList.head? ≠ some '0' := by decide
    have hhead := hall _ hn
    rw [hs] at hhead
    rcases hc with rfl | rfl <;> simp at hhead

theorem ofBody_plus (ds : List Char) : ofBody ('+' :: ds) = ofBody ('0' :: ds) := by
  cases ds with
  | nil => rfl
  | cons d ds =>
    have hread : readHex? ('+' :: d :: ds) = readHex? ('0' :: d :: ds) := by
      simp [readHex?, unsigned, hexValue_zero_cons, show isHexDigit '0' = true from rfl]
    rw [ofBody, ofBody, lookup_sign (.inl rfl), lookup_sign (.inr rfl), hread]
    rfl

/-- What is read is what the text with a `0` for the plus sign means. -/
theorem means_zeroed (s : List Char) : Means (zeroed s) (ofBody s) := by
  unfold zeroed
  split
  · next ds =>
    rw [ofBody_plus]
    exact means_ofBody (by simp)
  · next hplus => exact means_ofBody hplus

theorem Written.isHex {c : Char} (h : Written (c :: s) n) (hc : c = '+' ∨ c = '0') :
    IsHex 6 (c :: s) ∨ IsHex 3 (c :: s) := by
  generalize hs : c :: s = t at h
  cases h with
  | name hn =>
    have hlookup := lookup_eq_some.mpr ⟨_, hn, hs.symm⟩
    rw [lookup_sign hc] at hlookup
    cases hlookup
  | long hhex => exact .inl hhex
  | short hhex => exact .inr hhex

theorem not_written_plus (ds : List Char) : ¬ Written ('+' :: ds) n := by
  intro h
  rcases h.isHex (.inl rfl) with hhex | hhex
  · exact absurd (isHex_cons.mp hhex).1 (by decide)
  · exact absurd (isHex_cons.mp hhex).1 (by decide)

theorem signed_plus {ds : List Char} :
    Signed ('+' :: ds) ↔ (IsHex 2 ds ∨ IsHex 5 ds) ∧ hexValue ds ≠ 0 := by
  constructor
  · rintro ⟨ds, hs, h⟩
    obtain rfl := (List.cons.inj hs).2
    exact h
  · intro h
    exact ⟨ds, rfl, h⟩

theorem ofBody_plus_eq_zero_iff (ds : List Char) :
    ofBody ('+' :: ds) = 0 ↔ ¬ Signed ('+' :: ds) := by
  have hzero (k : Nat) : IsHex (k + 1) ('0' :: ds) ↔ IsHex k ds :=
    isHex_cons.trans (and_iff_right rfl)
  rw [ofBody_plus, signed_plus]
  by_cases hlong : IsHex 5 ds
  · have hvalue : ofBody ('0' :: ds) = hexValue ds := ((hzero 5).mpr hlong).ofBody_eq (by decide)
    simp [hvalue, hlong]
  by_cases hshort : IsHex 2 ds
  · have hvalue : ofBody ('0' :: ds) = double (hexValue ds) :=
      ((hzero 2).mpr hshort).ofBody_eq (by decide)
    have hlt := hexValue_lt hshort.2
    rw [hshort.1] at hlt
    rw [hvalue, double_eq_zero_iff (by omega)]
    simp [hshort]
  · -- with the `0` the text has the length of no color
    refine iff_of_true ?_ (by simp [hlong, hshort])
    rcases means_ofBody (s := '0' :: ds) (by simp) with hwritten | ⟨-, hblack⟩
    · rcases hwritten.isHex (.inr rfl) with hhex | hhex
      · exact absurd ((hzero 5).mp hhex) hlong
      · exact absurd ((hzero 2).mp hhex) hshort
    · exact hblack

theorem means_iff_not_signed (s : List Char) : Means s (ofBody s) ↔ ¬ Signed s := by
  by_cases hplus : ∃ ds, s = '+' :: ds
  · obtain ⟨ds, rfl⟩ := hplus
    rw [← ofBody_plus_eq_zero_iff]
    exact (or_iff_right (not_written_plus ds)).trans (and_iff_right fun m => not_written_plus ds)
  · refine iff_of_true (means_ofBody fun ds hs => hplus ⟨ds, hs⟩) ?_
    rintro ⟨ds, hs, -⟩
    exact hplus ⟨ds, hs⟩

/-- The digits are all there is to read for an attribute. -/
theorem ofAttribute_of_hex {value : String} (hs : IsHex k (body value)) (hk : 0 < k) :
    ofAttribute value =
      let n := hexValue (body value)
      if 0x100000000 ≤ n then 0 else if k = 3 then double n else n % 0x1000000 := by
  have hall : (body value).takeWhile isHexDigit = body value := List.takeWhile_eq_self_iff.mpr hs.2
  rw [ofAttribute, hall, hs.readHex?_eq hk, hs.1]

/-- In a stylesheet a text is read as what it means with the digit `0` for a plus sign at its front,
and so as what it means itself unless there is such a sign and other digits after it than zeros.
The runs of three and of six digits are the same color in an attribute. -/
theorem ofStylesheet_means_iff (value : String) :
    (∀ n, Means (zeroed (body value)) n ↔ n = ofStylesheet value) ∧
      (Means (body value) (ofStylesheet value) ↔ ¬ Signed (body value)) ∧
      (IsHex 3 (body value) ∨ IsHex 6 (body value) → ofAttribute value = ofStylesheet value) := by
  rw [ofStylesheet_eq]
  refine ⟨fun n => ⟨fun h => h.unique (means_zeroed _), ?_⟩, means_iff_not_signed _, ?_⟩
  · rintro rfl
    exact means_zeroed _
  · rintro (hs | hs)
    · have hlt := hexValue_lt hs.2
      rw [hs.1] at hlt
      rw [hs.ofBody_eq (by decide), ofAttribute_of_hex hs (by decide)]
      simp only
      rw [if_neg (by omega)]
      rfl
    · have hlt := hexValue_lt hs.2
      rw [hs.1] at hlt
      rw [hs.ofBody_eq (by decide), ofAttribute_of_hex hs (by decide)]
      simp only
      rw [if_neg (by omega)]
      exact Nat.mod_eq_of_lt hlt

/-- In both places three digits stand for six, in either case. -/
theorem ofStylesheet_means_short : ofAttribute " #f0A" = ofStylesheet " #f0A" :=
  (ofStylesheet_means_iff " #f0A").2.2 (.inl (by decide))

/-- Five digits are no color, but with a plus sign before them they are read as one. -/
theorem not_ofStylesheet_means :
    ¬ ∀ value : String, Means (body value) (ofStylesheet value) := by
  intro h
  have hsigned : Signed (body "+12345") :=
    ⟨['1', '2', '3', '4', '5'], by decide, .inr (by decide), by decide⟩
  exact (means_iff_not_signed _).mp (h "+12345") hsigned

end ScreenMarkup.Color
