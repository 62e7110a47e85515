import ScreenMarkup.Proofs.Numeric.Rounding
import ScreenMarkup.Proofs.State.Canonical

/-!
# Texts of single-precision numbers

The text of a number is a number of hundredths. Read back, it gives the number
that is nearest to these hundredths, which is at least as near to them as the
first number was, so its own text has the same hundredths. Only the text of an
infinite number cannot be read back.
-/

set_option autoImplicit false

namespace ScreenMarkup

open Numeric Text

variable {m n num den : ℕ} {q : ℤ} {x : ℚ} {negative : Bool}

/-! ## Hundredths -/

/-- The last two digits of a number. -/
def decimals (n : ℕ) : List Char := Nat.toDigits 10 (n % 100 / 10) ++ Nat.toDigits 10 (n % 10)

/-- A number of hundredths with a point and two decimal places. -/
def hundredths (negative : Bool) (n : ℕ) : List Char :=
  (if negative then ['-'] else []) ++ (Nat.toDigits 10 (n / 100) ++ '.' :: decimals n)

/-- The text of a number rounds its exact value, and a tie to the even hundredth. -/
theorem Binary32.text_finite (negative : Bool) (m : ℕ) (q : ℤ) :
    ∃ n, NearestEven (100 * (m * 2 ^ q)) n ∧
      (Binary32.finite negative m q).text = String.ofList (hundredths negative n) := by
  refine ⟨roundTiesEven (100 * (ratio m q).1) (ratio m q).2, ?_, ?_⟩
  · rw [← ratio_value, ← mul_div_assoc]
    exact_mod_cast nearestEven_roundTiesEven (100 * (ratio m q).1) (ratio_den_pos m q)
  · simp [text, hundredths, decimals, decimalDigits]

theorem isDigit_of_mem (n : ℕ) : ∀ c ∈ Nat.toDigits 10 n, c.isDigit = true :=
  fun _ hc => Nat.isDigit_of_mem_toDigits (by decide) (by decide) hc

/-- A sign, the digits of a number, a point and more digits are a decimal number. -/
theorem leadingDecimal_point (negative : Bool) (k : ℕ) {es : List Char}
    (hes : ∀ c ∈ es, c.isDigit = true) :
    (leadingDecimal ((if negative then ['-'] else []) ++ (Nat.toDigits 10 k ++ '.' :: es))).1 =
      some ⟨negative, Nat.toDigits 10 k ++ es, es.length⟩ := by
  have hwhole : (Nat.toDigits 10 k ++ '.' :: es).takeWhile Char.isDigit = Nat.toDigits 10 k := by
    rw [List.takeWhile_append_of_pos (isDigit_of_mem k)]
    simp
  have hafter : (Nat.toDigits 10 k ++ '.' :: es).dropWhile Char.isDigit = '.' :: es := by
    rw [List.dropWhile_append_of_pos (isDigit_of_mem k)]
    simp
  have hfraction : es.takeWhile Char.isDigit = es := List.takeWhile_eq_self_iff.mpr hes
  have hsome : Nat.toDigits 10 k ≠ [] := Nat.toDigits_ne_nil
  unfold leadingDecimal
  dsimp only
  rw [readSign_signed]
  dsimp only
  rw [hwhole, hafter]
  simp [hfraction, hsome]

theorem digitsValue_append (ds es : List Char) :
    digitsValue (ds ++ es) = digitsValue ds * 10 ^ es.length + digitsValue es := by
  induction es using List.reverseRecOn with
  | nil => simp [digitsValue]
  | append_singleton es c ih =>
    have hlast (ds : List Char) : digitsValue (ds ++ [c]) = 10 * digitsValue ds + digitValue c := by
      simp [digitsValue]
    rw [← List.append_assoc, hlast, hlast, ih, List.length_append, List.length_singleton, pow_succ]
    ring

theorem length_decimals (n : ℕ) : (decimals n).length = 2 := by
  rw [decimals, List.length_append, Nat.toDigits_of_lt_base (n := n % 10) (by omega),
    Nat.toDigits_of_lt_base (n := n % 100 / 10) (by omega)]
  rfl

theorem digitsValue_hundredths (n : ℕ) :
    digitsValue (Nat.toDigits 10 (n / 100) ++ decimals n) = n := by
  have htens : (Nat.toDigits 10 (n % 10)).length = 1 := by
    rw [Nat.toDigits_of_lt_base (by omega)]
    rfl
  rw [digitsValue_append, length_decimals, decimals, digitsValue_append, htens,
    digitsValue_toDigits, digitsValue_toDigits, digitsValue_toDigits]
  omega

/-- The number of a text with two decimal places is the one nearest to its hundredths. -/
theorem read_hundredths (negative : Bool) (n : ℕ) :
    Value.read .float (String.ofList (hundredths negative n)) =
      .float (Binary32.ofRatio negative n 100) := by
  have hdigits : ∀ c ∈ decimals n, c.isDigit = true := by
    intro c hc
    exact (List.mem_append.mp hc).elim (isDigit_of_mem _ c) (isDigit_of_mem _ c)
  have hdecimal := leadingDecimal_point negative (n / 100) hdigits
  rw [length_decimals] at hdecimal
  rw [Value.read, String.toList_ofList, leadingFloatD, leadingFloat, Prod.map_fst, hundredths,
    hdecimal]
  simp [Decimal.nearest, digitsValue_hundredths]

/-! ## Stable texts -/

/-- What is as near to the hundredths of a number as the number itself has the same hundredths: a
tie was decided for them before. -/
theorem NearestEven.of_le {y z : ℚ} (h : NearestEven (100 * y) n)
    (hle : |z - n / 100| ≤ |y - n / 100|) : NearestEven (100 * z) n := by
  have hscale (w : ℚ) : |100 * w - n| = 100 * |w - n / 100| := by
    rw [show 100 * w - n = 100 * (w - n / 100) by ring, abs_mul, abs_of_pos (by norm_num)]
  have hnear := h.near
  have heven := h.even
  rw [hscale] at hnear heven
  constructor
  · rw [hscale]
    linarith
  · intro htie
    rw [hscale] at htie
    exact heven (by linarith)

theorem Binary32.Nearest.le_largest (h : Nearest x m q) : (m * 2 ^ q : ℚ) ≤ 2 ^ 128 - 2 ^ 104 := by
  have hm : (m : ℚ) ≤ 2 ^ 24 - 1 := by
    rw [le_sub_iff_add_le]
    exact_mod_cast h.mantissa_lt
  calc (m * 2 ^ q : ℚ) ≤ (2 ^ 24 - 1) * 2 ^ (104 : ℤ) :=
        mul_le_mul hm (two_zpow_le h.exponent_le) (two_zpow_pos q).le (by norm_num)
    _ = 2 ^ 128 - 2 ^ 104 := by norm_num

/-- Hundredths are read as the nearest number, so no finite number with them is lost. -/
theorem Binary32.text_ofRatio_hundredths (h : Nearest x m q)
    (hn : NearestEven (100 * (m * 2 ^ q)) n) (negative : Bool) :
    (ofRatio negative n 100).text = String.ofList (hundredths negative n) := by
  have hlimit : (n / (100 : ℕ) : ℚ) < limit := by
    have hlargest := h.le_largest
    have hnear := abs_le.mp hn.near
    rw [limit]
    norm_num at hlargest ⊢
    linarith
  obtain ⟨k, p, hread, hnearest⟩ := ofRatio_of_lt_limit negative (by decide) hlimit
  obtain ⟨n', hn', htext⟩ := text_finite negative k p
  have hclosest := hnearest.closest m q h.mantissa_lt h.exponent_ge
  rw [abs_sub_comm, abs_sub_comm _ (m * 2 ^ q : ℚ)] at hclosest
  rw [hread, htext, hn'.unique (hn.of_le hclosest)]

/-- The text of a rounded number reads back to a number with this text. -/
theorem read_text_ofRatio (negative : Bool) (num : ℕ) (hden : 0 < den)
    (h : (num / den : ℚ) < Binary32.limit) :
    (Value.read .float (Binary32.ofRatio negative num den).text).text =
      (Binary32.ofRatio negative num den).text := by
  obtain ⟨m, q, heq, hnearest⟩ := Binary32.ofRatio_of_lt_limit negative hden h
  obtain ⟨n, hn, htext⟩ := Binary32.text_finite negative m q
  rw [heq, htext, read_hundredths]
  exact Binary32.text_ofRatio_hundredths hnearest hn negative

/-- An infinite number is lost with its text. -/
theorem read_text_infinite (negative : Bool) :
    (Value.read .float (Binary32.infinite negative).text).text ≠
      (Binary32.infinite negative).text := by
  cases negative with
  | false => decide
  | true => decide

/-- The exact value of a decimal number, without its sign. -/
def Numeric.Decimal.magnitude (d : Decimal) : ℚ := digitsValue d.digits / 10 ^ d.places

theorem Numeric.Decimal.read_text_nearest_iff (d : Decimal) :
    (Value.read .float d.nearest.text).text = d.nearest.text ↔ d.magnitude < Binary32.limit := by
  have hden : 0 < Nat.pow 10 d.places := Nat.pow_pos (by decide)
  have hratio : (digitsValue d.digits / Nat.pow 10 d.places : ℚ) = d.magnitude := by
    rw [magnitude, Nat.pow_eq]
    push_cast
    rfl
  rw [← hratio]
  by_cases h : (digitsValue d.digits / Nat.pow 10 d.places : ℚ) < Binary32.limit
  · exact iff_of_true (read_text_ofRatio d.negative _ hden h) h
  · have hinfinite : d.nearest = .infinite d.negative :=
      Binary32.ofRatio_of_limit_le d.negative hden (not_lt.mp h)
    rw [hinfinite]
    exact iff_of_false (read_text_infinite d.negative) h

/-- The canonical text of a finite number gives its exact value in hundredths, a tie as an even
number of them. Whatever text it was read from, the canonical text is stable unless the decimal
number read there rounds to an infinite one. -/
theorem float_text_stable_iff (s : String) :
    (∀ (negative : Bool) (m : ℕ) (q : ℤ),
      Value.read .float s = .float (.finite negative m q) →
        ∃ n, NearestEven (100 * (m * 2 ^ q)) n ∧
          (Value.read .float s).text = String.ofList (hundredths negative n)) ∧
    ((Value.read .float (Value.read .float s).text).text = (Value.read .float s).text ↔
      ∀ d, (leadingDecimal s.toList).1 = some d → d.magnitude < Binary32.limit) := by
  constructor
  · intro negative m q hread
    rw [hread]
    exact Binary32.text_finite negative m q
  · have hread : Value.read .float s =
        .float (((leadingDecimal s.toList).1.map Decimal.nearest).getD (Binary32.zero false)) := rfl
    rw [hread]
    cases (leadingDecimal s.toList).1 with
    | none =>
      have hzero : Binary32.zero false = Binary32.ofRatio false 0 1 :=
        (if_pos (.inl rfl)).symm
      have hstable := read_text_ofRatio false 0 one_pos (by norm_num [Binary32.limit])
      rw [← hzero] at hstable
      exact iff_of_true hstable (by simp)
    | some d => simpa [Value.text] using d.read_text_nearest_iff

/-- A number of 39 digits, which rounds to an infinite one. -/
theorem not_float_text_stable :
    ¬ ∀ s : String,
      (Value.read .float (Value.read .float s).text).text = (Value.read .float s).text := by
  intro h
  have hlarge := h "340282356779733661637539395458142568448"
  revert hlarge
  decide +kernel

end ScreenMarkup
