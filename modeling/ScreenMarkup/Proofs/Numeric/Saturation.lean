import Mathlib.Data.List.Induction
import Mathlib.Data.Nat.Digits.Defs
import ScreenMarkup.Proofs.State.Canonical
import ScreenMarkup.Proofs.Text.Cutting

/-!
# Saturating integers

The integer at the start of a text is kept within 32 bits, as long as it has
at most 64: its sign, leading zeros and what follows the digits do not matter.
Beyond 64 bits it counts as zero, so a larger number can give less.
-/

set_option autoImplicit false

namespace ScreenMarkup.Numeric

open Text

variable {s : List Char} {n n' : Int} {ds rest : List Char}

/-! ## The number at the start of a text -/

inductive Sign where
  | none | plus | minus

namespace Sign

def text : Sign → List Char
  | none => []
  | plus => ['+']
  | minus => ['-']

def signed : Sign → Nat → Int
  | minus, k => -k
  | _, k => k

end Sign

/-- The number that decimal digits write, the last one counting ones. -/
def written (ds : List Char) : Nat := Nat.ofDigits 10 (ds.reverse.map digitValue)

/-- After blanks the text has an optional sign and some digits, as many as there are, that write
the number. -/
inductive Leads : List Char → Int → Prop
  | mk {blanks ds rest : List Char} (sign : Sign) (hb : ∀ c ∈ blanks, isBlank c = true)
    (hne : ds ≠ []) (hd : ∀ c ∈ ds, c.isDigit = true)
    (hr : ∀ c, rest.head? = some c → c.isDigit = false) :
    Leads (blanks ++ sign.text ++ ds ++ rest) (sign.signed (written ds))

/-- The 32-bit integer nearest to an integer. -/
def saturate (n : Int) : Int := max minInt32 (min maxInt32 n)

def FitsInt64 (n : Int) : Prop := minInt64 ≤ n ∧ n ≤ maxInt64

instance (n : Int) : Decidable (FitsInt64 n) := inferInstanceAs (Decidable (_ ∧ _))

/-! ## Reading it -/

theorem digitsValue_eq_written (ds : List Char) : digitsValue ds = written ds := by
  induction ds using List.reverseRecOn with
  | nil => rfl
  | append_singleton ds c ih =>
    rw [written] at ih
    rw [digitsValue] at ih
    simp [digitsValue, written, Nat.ofDigits_cons, ih, Nat.add_comm]

theorem takeWhile_digits (hd : ∀ c ∈ ds, c.isDigit = true)
    (hr : ∀ c, rest.head? = some c → c.isDigit = false) :
    (ds ++ rest).takeWhile Char.isDigit = ds := by
  rw [List.takeWhile_append_of_pos hd]
  cases rest with
  | nil => simp
  | cons c rest => simp [hr c rfl]

/-- Neither a sign nor a digit is a blank, so the blanks end there, and the sign is read. -/
theorem readSign_text (sign : Sign) (hne : ds ≠ []) (hd : ∀ c ∈ ds, c.isDigit = true)
    (rest : List Char) :
    ∃ negative, readSign (trimStart (sign.text ++ ds ++ rest)) = (negative, ds ++ rest) ∧
      ∀ k : Nat, (if negative = true then -(k : Int) else k) = sign.signed k := by
  obtain ⟨c, ds, rfl⟩ := List.exists_cons_of_ne_nil hne
  have hc : c.isDigit = true := hd c (by simp)
  cases sign with
  | none =>
    refine ⟨false, ?_, fun k => rfl⟩
    show readSign ((c :: (ds ++ rest)).dropWhile isBlank) = _
    rw [List.dropWhile_cons_of_neg (by simp [not_isBlank_of_isDigit hc]), readSign_of_isDigit hc]
    rfl
  | plus => exact ⟨false, rfl, fun k => rfl⟩
  | minus => exact ⟨true, rfl, fun k => rfl⟩

theorem leadingInt_eq (h : Leads s n) :
    leadingInt s = if FitsInt64 n then saturate n else 0 := by
  cases h with
  | @mk blanks ds rest sign hb hne hd hr =>
    obtain ⟨negative, hsign, hvalue⟩ := readSign_text sign hne hd rest
    have hblanks : trimStart (blanks ++ sign.text ++ ds ++ rest) =
        trimStart (sign.text ++ ds ++ rest) := by
      simp only [trimStart, List.append_assoc]
      exact List.dropWhile_append_of_pos hb
    unfold leadingInt
    rw [hblanks, hsign]
    dsimp only
    rw [takeWhile_digits hd hr, digitsValue_eq_written, hvalue]
    by_cases hfits : FitsInt64 (sign.signed (written ds))
    · have hinside : ¬ (sign.signed (written ds) < minInt64 ∨
          maxInt64 < sign.signed (written ds)) := by
        have := hfits.1
        have := hfits.2
        omega
      simp [hne, hinside, hfits, saturate]
    · have houtside : sign.signed (written ds) < minInt64 ∨
          maxInt64 < sign.signed (written ds) := by
        unfold FitsInt64 at hfits
        omega
      simp [houtside, hfits]

/-! ## Saturation -/

/-- The integer at the start of a text is kept within 32 bits exactly if it has no more than 64, and
is zero otherwise. So of two texts the one with the larger number gives no less, unless its number
is too large and the other one is positive and is not, or the other number is too small and its own
is negative and is not. -/
theorem leadingInt_saturates_iff (h : Leads s n) :
    (leadingInt s = saturate n ↔ FitsInt64 n) ∧ (¬ FitsInt64 n → leadingInt s = 0) ∧
    ∀ {s' : List Char} {n' : Int}, Leads s' n' → n ≤ n' →
      (leadingInt s ≤ leadingInt s' ↔
        (maxInt64 < n' → n ≤ 0 ∨ maxInt64 < n) ∧ (n < minInt64 → 0 ≤ n' ∨ n' < minInt64)) := by
  refine ⟨?_, fun hbig => by rw [leadingInt_eq h, if_neg hbig], fun h' hle => ?_⟩
  · rw [leadingInt_eq h]
    by_cases hfits : FitsInt64 n
    · simp [hfits]
    · have hzero : (0 : Int) ≠ saturate n := by
        simp only [FitsInt64, saturate, minInt64, maxInt64, minInt32, maxInt32] at *
        omega
      simp [hfits, hzero]
  · rw [leadingInt_eq h, leadingInt_eq h']
    simp only [FitsInt64, saturate, minInt64, maxInt64, minInt32, maxInt32]
    split_ifs <;> omega

/-- Leading zeros do not count, and eleven digits are too many for 32 bits. -/
theorem leadingInt_saturates_of_zeros :
    let s := " +000000000000000000000099999999999px".toList
    let s' := "-5".toList
    leadingInt s = maxInt32 ∧ leadingInt s' ≤ leadingInt s := by
  intro s s'
  have h : Leads s 99999999999 :=
    @Leads.mk [' '] "000000000000000000000099999999999".toList "px".toList .plus
      (List.all_eq_true.mp (by decide)) (by decide) (List.all_eq_true.mp (by decide)) (by simp)
  have h' : Leads s' (-5) :=
    @Leads.mk [] ['5'] [] .minus (by simp) (by decide) (List.all_eq_true.mp (by decide)) (by simp)
  have hvalue : leadingInt s = saturate 99999999999 :=
    (leadingInt_saturates_iff h).1.mpr (by decide)
  have hle : leadingInt s' ≤ leadingInt s :=
    ((leadingInt_saturates_iff h').2.2 h (by decide)).mpr (by decide)
  exact ⟨hvalue, hle⟩

/-- Twenty digits count as zero. -/
theorem not_leadingInt_saturates :
    ¬ ∀ (s : List Char) (n : Int), Leads s n → leadingInt s = saturate n := by
  intro hall
  have h : Leads "99999999999999999999".toList 99999999999999999999 :=
    @Leads.mk [] "99999999999999999999".toList [] .none (by simp) (by decide)
      (List.all_eq_true.mp (by decide)) (by simp)
  exact absurd (hall _ _ h) (by decide)

end ScreenMarkup.Numeric
