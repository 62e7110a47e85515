import Mathlib.Algebra.Group.Nat.Defs
import ScreenMarkup.Numeric.Digits

/-!
# Reading numbers

A number is read from a run of digits with an optional plus sign before it. A
run of hexadecimal digits has a value below the power of sixteen that its
length gives, and zeros before it do not change that value.
-/

set_option autoImplicit false

namespace ScreenMarkup.Numeric

variable {ds s : List Char} {c : Char} {n : Nat}

/-! ## Signs -/

theorem unsigned_cases (s : List Char) : s = unsigned s ∨ s = '+' :: unsigned s := by
  unfold unsigned
  split
  · right; rfl
  · left; rfl

/-- A run of digits has one reading, and a plus sign before it makes no difference. -/
theorem unsigned_of_run {digit : Char → Bool} (hplus : digit '+' = false)
    (hds : ∀ d ∈ ds, digit d = true) (hs : s = ds ∨ s = '+' :: ds) : unsigned s = ds := by
  rcases hs with rfl | rfl
  · unfold unsigned
    split
    · simp [hplus] at hds
    · rfl
  · rfl

theorem readDecimal?_eq_some :
    readDecimal? s = some n ↔ ∃ ds, (s = ds ∨ s = '+' :: ds) ∧ ds ≠ [] ∧
      (∀ d ∈ ds, d.isDigit = true) ∧ digitsValue ds = n := by
  constructor
  · intro h
    simp [readDecimal?] at h
    exact ⟨unsigned s, unsigned_cases s, h.1.1, h.1.2, h.2⟩
  · rintro ⟨ds, hs, hne, hds, rfl⟩
    simpa [readDecimal?, unsigned_of_run (by decide) hds hs, hne] using hds

theorem readHex?_eq_some :
    readHex? s = some n ↔ ∃ ds, (s = ds ∨ s = '+' :: ds) ∧ ds ≠ [] ∧
      (∀ d ∈ ds, isHexDigit d = true) ∧ hexValue ds = n := by
  constructor
  · intro h
    simp [readHex?] at h
    exact ⟨unsigned s, unsigned_cases s, h.1.1, h.1.2, h.2⟩
  · rintro ⟨ds, hs, hne, hds, rfl⟩
    simpa [readHex?, unsigned_of_run (by decide) hds hs, hne] using hds

/-! ## Hexadecimal digits -/

/-- The three ranges of the digits. -/
theorem isHexDigit_iff : isHexDigit c = true ↔
    (48 ≤ c.toNat ∧ c.toNat ≤ 57) ∨ (97 ≤ c.toNat ∧ c.toNat ≤ 102) ∨
      (65 ≤ c.toNat ∧ c.toNat ≤ 70) := by
  simp only [isHexDigit, Char.isDigit, Bool.or_eq_true, Bool.and_eq_true, decide_eq_true_eq,
    or_assoc]
  rfl

theorem hexDigitValue_lt (hc : isHexDigit c = true) : hexDigitValue c < 16 := by
  have hrange := isHexDigit_iff.mp hc
  have hdigit : c.isDigit = true ↔ 48 ≤ c.toNat ∧ c.toNat ≤ 57 := by
    simp only [Char.isDigit, Bool.and_eq_true, decide_eq_true_eq]
    rfl
  have hlower : 'a' ≤ c ∧ c ≤ 'f' ↔ 97 ≤ c.toNat ∧ c.toNat ≤ 102 := Iff.rfl
  simp only [hexDigitValue, digitValue, hdigit, hlower]
  split
  · show c.toNat - 48 < 16
    omega
  · split
    · show c.toNat - 97 + 10 < 16
      omega
    · show c.toNat - 65 + 10 < 16
      omega

theorem utf8Size_of_isHexDigit (hc : isHexDigit c = true) : c.utf8Size = 1 := by
  have hrange := isHexDigit_iff.mp hc
  have hascii : c.val ≤ 0x7f := by
    show c.toNat ≤ 127
    omega
  simp [Char.utf8Size, hascii]

theorem hexValue_zero_cons (ds : List Char) : hexValue ('0' :: ds) = hexValue ds := rfl

/-- The value grows from what has been read by a power of sixteen. -/
theorem foldl_hex_lt (hds : ∀ d ∈ ds, isHexDigit d = true) (n : Nat) :
    ds.foldl (fun n c => 16 * n + hexDigitValue c) n < (n + 1) * 16 ^ ds.length := by
  induction ds generalizing n with
  | nil => simp
  | cons c ds ih =>
    have hdigit := hexDigitValue_lt (hds c List.mem_cons_self)
    calc ds.foldl (fun n c => 16 * n + hexDigitValue c) (16 * n + hexDigitValue c)
        < (16 * n + hexDigitValue c + 1) * 16 ^ ds.length :=
          ih (fun d hd => hds d (List.mem_cons_of_mem c hd)) _
      _ ≤ (16 * (n + 1)) * 16 ^ ds.length := Nat.mul_le_mul_right _ (by omega)
      _ = (n + 1) * 16 ^ (c :: ds).length := by
          rw [List.length_cons, Nat.pow_succ, Nat.mul_comm 16, Nat.mul_assoc, Nat.mul_comm 16]

theorem hexValue_lt (hds : ∀ d ∈ ds, isHexDigit d = true) : hexValue ds < 16 ^ ds.length := by
  have h := foldl_hex_lt hds 0
  rwa [Nat.zero_add, Nat.one_mul] at h

end ScreenMarkup.Numeric
