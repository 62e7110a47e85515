import Mathlib.Algebra.Order.Field.Power
import Mathlib.Algebra.Order.Ring.Abs
import Mathlib.Data.Rat.Cast.Order
import Mathlib.Tactic.FieldSimp
import Mathlib.Tactic.Linarith
import Mathlib.Tactic.NormNum
import Mathlib.Tactic.Positivity
import Mathlib.Tactic.Ring
import ScreenMarkup.Numeric.Binary32

/-!
# Rounding to single precision

A ratio is rounded to the grid of the numbers with its exponent. The result is
nearest among all numbers with mantissas below `2 ^ 24`, those with another
exponent included: below the grid lie only numbers that are smaller than a
point of it. The rounded number is too large from halfway between the largest
number and the next power of two on.
-/

set_option autoImplicit false

namespace ScreenMarkup

variable {x : ℚ} {n n' num den : ℕ} {q : ℤ}

/-! ## Integers -/

/-- `n` is an integer nearest to `x`, and the even one of two. -/
structure NearestEven (x : ℚ) (n : ℕ) : Prop where
  near : |x - n| ≤ 1 / 2
  even : |x - n| = 1 / 2 → n % 2 = 0

theorem dist_le (x : ℚ) (n k : ℕ) : |(n : ℚ) - k| ≤ |x - n| + |x - k| := by
  rw [abs_sub_comm x]
  exact abs_sub_le _ _ _

theorem one_le_dist (hne : n ≠ n') : (1 : ℚ) ≤ |(n : ℚ) - n'| := by
  exact_mod_cast Int.one_le_abs (show (n : ℤ) - n' ≠ 0 by omega)

/-- No integer is nearer. -/
theorem NearestEven.closest (h : NearestEven x n) (k : ℕ) : |x - n| ≤ |x - k| := by
  by_cases hk : n = k
  · rw [hk]
  · linarith [h.near, dist_le x n k, one_le_dist hk]

theorem NearestEven.unique (h : NearestEven x n) (h' : NearestEven x n') : n = n' := by
  by_contra hne
  have hdist := dist_le x n n'
  have hone := one_le_dist hne
  have hnear := h.near
  have hnear' := h'.near
  have heven := h.even (by linarith)
  have heven' := h'.even (by linarith)
  -- two even integers are too far from each other
  have htwo : (2 : ℤ) ≤ |(n : ℤ) - n'| := by
    rw [Int.abs_eq_natAbs]
    omega
  have htwo' : (2 : ℚ) ≤ |(n : ℚ) - n'| := by exact_mod_cast htwo
  linarith

theorem nearestEven_roundTiesEven (num : ℕ) (hden : 0 < den) :
    NearestEven (num / den) (roundTiesEven num den) := by
  have hd : (0 : ℚ) < den := by exact_mod_cast hden
  have hx : (num / den : ℚ) = (num / den : ℕ) + ((num % den : ℕ) : ℚ) / den := by
    rw [div_eq_iff hd.ne', add_mul, div_mul_cancel₀ _ hd.ne']
    exact_mod_cast (Nat.div_add_mod' num den).symm
  have hr : ((num % den : ℕ) : ℚ) / den < 1 := by
    rw [div_lt_one hd]
    exact_mod_cast Nat.mod_lt num hden
  have hr' : 0 ≤ ((num % den : ℕ) : ℚ) / den := by positivity
  have hlow : 2 * (num % den) < den ↔ ((num % den : ℕ) : ℚ) / den < 1 / 2 := by
    rw [div_lt_div_iff₀ hd two_pos]
    norm_cast
    omega
  have hhigh : den < 2 * (num % den) ↔ 1 / 2 < ((num % den : ℕ) : ℚ) / den := by
    rw [div_lt_div_iff₀ two_pos hd]
    norm_cast
    omega
  rw [hx, roundTiesEven]
  simp only [hlow, hhigh]
  generalize ((num % den : ℕ) : ℚ) / den = r at *
  generalize num / den = k
  split_ifs with h₁ h₂ h₃
  · constructor
    · rw [add_sub_cancel_left, abs_of_nonneg hr']
      exact h₁.le
    · intro htie
      rw [add_sub_cancel_left, abs_of_nonneg hr'] at htie
      exact absurd htie h₁.ne
  · have hdist : |(k : ℚ) + r - ((k + 1 : ℕ) : ℚ)| = 1 - r := by
      rw [abs_of_neg (by push_cast; linarith)]
      push_cast
      ring
    constructor
    · rw [hdist]
      linarith
    · intro htie
      rw [hdist] at htie
      linarith
  · constructor
    · rw [add_sub_cancel_left, abs_of_nonneg hr']
      linarith
    · exact fun _ => h₃
  · constructor
    · rw [abs_le]
      push_cast
      constructor <;> linarith
    · intro _
      omega

/-! ## Powers of two -/

theorem two_zpow_toNat (q : ℤ) : (2 : ℚ) ^ q.toNat = 2 ^ q * 2 ^ (-q).toNat := by
  rw [← zpow_natCast, ← zpow_natCast, ← zpow_add₀ two_ne_zero]
  congr 1
  omega

theorem two_zpow_pos (q : ℤ) : (0 : ℚ) < 2 ^ q := by positivity

theorem two_zpow_le {p q : ℤ} (h : p ≤ q) : (2 : ℚ) ^ p ≤ 2 ^ q :=
  zpow_le_zpow_right₀ one_le_two h

/-- Shifting divides a ratio by a power of two. -/
theorem ratio_shift (num den : ℕ) (q : ℤ) :
    ((num <<< (-q).toNat : ℕ) : ℚ) / (den <<< q.toNat : ℕ) = num / den / 2 ^ q := by
  have hq := two_zpow_pos q
  have hpow : (0 : ℚ) < 2 ^ (-q).toNat := by positivity
  rw [Nat.shiftLeft_eq, Nat.shiftLeft_eq]
  push_cast
  rw [two_zpow_toNat q]
  field_simp

theorem Binary32.ratio_den_pos (m : ℕ) (q : ℤ) : 0 < (ratio m q).2 := by
  show 0 < 1 <<< (-q).toNat
  rw [Nat.shiftLeft_eq]
  positivity

/-- A finite number as a ratio. -/
theorem ratio_value (m : ℕ) (q : ℤ) :
    ((Binary32.ratio m q).1 : ℚ) / (Binary32.ratio m q).2 = m * 2 ^ q := by
  have hratio := ratio_shift m 1 (-q)
  rw [neg_neg, Nat.cast_one, div_one, zpow_neg, div_inv_eq_mul] at hratio
  exact hratio

theorem two_zpow_le_iff (num : ℕ) (hden : 0 < den) (q : ℤ) :
    (2 : ℚ) ^ q ≤ num / den ↔ den <<< q.toNat ≤ num <<< (-q).toNat := by
  have hd : (0 : ℚ) < den := by exact_mod_cast hden
  have hshift : (0 : ℚ) < (den <<< q.toNat : ℕ) := by
    rw [Nat.shiftLeft_eq]
    positivity
  rw [← one_le_div₀ (two_zpow_pos q), ← ratio_shift, one_le_div₀ hshift]
  norm_cast

/-- The exponent of a ratio. -/
theorem ratioLog_bounds (hnum : 0 < num) (hden : 0 < den) :
    (2 : ℚ) ^ ratioLog num den ≤ num / den ∧ (num / den : ℚ) < 2 ^ (ratioLog num den + 1) := by
  have hd : (0 : ℚ) < den := by exact_mod_cast hden
  have hnum₁ : (2 : ℚ) ^ num.log2 ≤ num := by exact_mod_cast Nat.log2_self_le hnum.ne'
  have hnum₂ : (num : ℚ) < 2 ^ (num.log2 + 1) := by exact_mod_cast Nat.lt_log2_self
  have hden₁ : (2 : ℚ) ^ den.log2 ≤ den := by exact_mod_cast Nat.log2_self_le hden.ne'
  have hden₂ : (den : ℚ) < 2 ^ (den.log2 + 1) := by exact_mod_cast Nat.lt_log2_self
  have hpow (a b : ℕ) : (2 : ℚ) ^ ((a : ℤ) - b) = 2 ^ a / 2 ^ b := by
    rw [zpow_sub₀ two_ne_zero, zpow_natCast, zpow_natCast]
  have hlow : (2 : ℚ) ^ ((num.log2 : ℤ) - den.log2 - 1) ≤ num / den := by
    rw [show (num.log2 : ℤ) - den.log2 - 1 = (num.log2 : ℤ) - (den.log2 + 1 : ℕ) by omega, hpow]
    exact div_le_div₀ (by positivity) hnum₁ hd hden₂.le
  have hhigh : (num / den : ℚ) < 2 ^ ((num.log2 : ℤ) - den.log2 + 1) := by
    rw [show (num.log2 : ℤ) - den.log2 + 1 = ((num.log2 + 1 : ℕ) : ℤ) - den.log2 by omega, hpow]
    exact div_lt_div₀ hnum₂ hden₁ (by positivity) (by positivity)
  have hiff := two_zpow_le_iff num hden ((num.log2 : ℤ) - den.log2)
  rw [ratioLog]
  split_ifs with h
  · exact ⟨hiff.mpr h, hhigh⟩
  · refine ⟨hlow, ?_⟩
    rw [sub_add_cancel]
    exact not_le.mp fun hle => h (hiff.mp hle)

/-! ## The grid of one exponent -/

/-- `n` is the mantissa of `x` on the grid of the exponent `q`, which is the one of `x` itself
unless that is too small. -/
structure OnGrid (x : ℚ) (n : ℕ) (q : ℤ) : Prop where
  nearest : NearestEven (x / 2 ^ q) n
  ge : -149 ≤ q
  low : q = -149 ∨ 2 ^ (q + 23) ≤ x
  high : x < 2 ^ (q + 24)

theorem onGrid_ratio (hnum : 0 < num) (hden : 0 < den)
    (hq : q = max (ratioLog num den - 23) (-149)) :
    OnGrid (num / den) (roundTiesEven (num <<< (-q).toNat) (den <<< q.toNat)) q := by
  have hbounds := ratioLog_bounds hnum hden
  have hshift : 0 < den <<< q.toNat := by
    rw [Nat.shiftLeft_eq]
    positivity
  constructor
  · rw [← ratio_shift]
    exact nearestEven_roundTiesEven _ hshift
  · omega
  · by_cases hmin : q = -149
    · exact .inl hmin
    · rw [show q + 23 = ratioLog num den by omega]
      exact .inr hbounds.1
  · exact hbounds.2.trans_le (two_zpow_le (by omega))

namespace OnGrid

theorem dist_eq (x : ℚ) (n : ℕ) (q : ℤ) : |x - n * 2 ^ q| = |x / 2 ^ q - n| * 2 ^ q := by
  have hq := two_zpow_pos q
  rw [← abs_of_pos hq, ← abs_mul, abs_of_pos hq, sub_mul, div_mul_cancel₀ _ hq.ne']

/-- No other point of the grid is nearer. -/
theorem closest_multiple (h : OnGrid x n q) (k : ℕ) : |x - n * 2 ^ q| ≤ |x - k * 2 ^ q| := by
  rw [dist_eq, dist_eq]
  exact mul_le_mul_of_nonneg_right (h.nearest.closest k) (two_zpow_pos q).le

/-- No number with any exponent is nearer: the larger ones stand on the grid, and of the smaller
ones none exceeds the smallest full mantissa. -/
theorem closest (h : OnGrid x n q) {k : ℕ} {p : ℤ} (hk : k < 2 ^ 24) (hp : -149 ≤ p) :
    |x - n * 2 ^ q| ≤ |x - k * 2 ^ p| := by
  by_cases hle : q ≤ p
  · have hmultiple : (k : ℚ) * 2 ^ p = (k * 2 ^ (p - q).toNat : ℕ) * 2 ^ q := by
      push_cast
      rw [mul_assoc, ← zpow_natCast, ← zpow_add₀ two_ne_zero]
      congr 2
      omega
    rw [hmultiple]
    exact h.closest_multiple _
  · have hx : (2 : ℚ) ^ (q + 23) ≤ x := h.low.resolve_left (by omega)
    have hfull : ((2 ^ 23 : ℕ) : ℚ) * 2 ^ q = 2 ^ (q + 23) := by
      rw [zpow_add₀ two_ne_zero, mul_comm]
      norm_num
    have hsmall : (k : ℚ) * 2 ^ p ≤ 2 ^ (q + 23) :=
      calc (k : ℚ) * 2 ^ p ≤ 2 ^ 24 * 2 ^ p := by
            have hk' : (k : ℚ) ≤ 2 ^ 24 := by exact_mod_cast hk.le
            exact mul_le_mul_of_nonneg_right hk' (two_zpow_pos p).le
        _ = 2 ^ (24 + p) := by rw [zpow_add₀ two_ne_zero]; rfl
        _ ≤ 2 ^ (q + 23) := two_zpow_le (by omega)
    calc |x - n * 2 ^ q| ≤ |x - (2 ^ 23 : ℕ) * 2 ^ q| := h.closest_multiple _
      _ = x - 2 ^ (q + 23) := by rw [hfull, abs_of_nonneg (sub_nonneg.mpr hx)]
      _ ≤ x - k * 2 ^ p := sub_le_sub_left hsmall x
      _ ≤ |x - k * 2 ^ p| := le_abs_self _

theorem le (h : OnGrid x n q) : n ≤ 2 ^ 24 := by
  have hx : x / 2 ^ q < 2 ^ 24 := by
    rw [div_lt_iff₀ (two_zpow_pos q)]
    have hhigh := h.high
    rw [zpow_add₀ two_ne_zero, mul_comm] at hhigh
    exact hhigh
  have hn : (n : ℚ) < 2 ^ 24 + 1 := by linarith [abs_le.mp h.nearest.near]
  exact Nat.lt_succ_iff.mp (by exact_mod_cast hn)

theorem full (h : OnGrid x n q) (hq : q ≠ -149) : 2 ^ 23 ≤ n := by
  have hx : 2 ^ 23 ≤ x / 2 ^ q := by
    rw [le_div_iff₀ (two_zpow_pos q)]
    have hlow := h.low.resolve_left hq
    rw [zpow_add₀ two_ne_zero, mul_comm] at hlow
    exact hlow
  have hn : (2 : ℚ) ^ 23 < n + 1 := by linarith [abs_le.mp h.nearest.near]
  exact Nat.lt_succ_iff.mp (by exact_mod_cast hn)

end OnGrid

namespace Binary32

/-- Halfway between the largest number and the next power of two. -/
def limit : ℚ := 2 ^ 128 - 2 ^ 103

end Binary32

/-- Just from the limit on, the mantissa or the exponent gets too large. -/
theorem OnGrid.overflow_iff (h : OnGrid x n q) :
    104 < q ∨ q = 104 ∧ n = 2 ^ 24 ↔ Binary32.limit ≤ x := by
  unfold Binary32.limit
  rcases lt_trichotomy q 104 with hq | rfl | hq
  · have hx : x < 2 ^ (127 : ℤ) := h.high.trans_le (two_zpow_le (by omega))
    norm_num at hx ⊢
    constructor
    · omega
    · intro hle
      linarith
  · have hscale : (2 : ℚ) ^ 128 - 2 ^ 103 ≤ x ↔ 2 ^ 24 - 1 / 2 ≤ x / 2 ^ (104 : ℤ) := by
      rw [le_div_iff₀ (two_zpow_pos 104)]
      norm_num
    have hnear := abs_le.mp h.nearest.near
    rw [hscale]
    constructor
    · rintro (hlt | ⟨-, rfl⟩)
      · omega
      · push_cast at hnear
        linarith
    · intro hx
      right
      have hlow : ((2 ^ 24 - 1 : ℕ) : ℚ) ≤ n := by
        push_cast
        linarith
      have hlow' : 2 ^ 24 - 1 ≤ n := by exact_mod_cast hlow
      have hn := h.le
      by_contra hne
      obtain rfl : n = 2 ^ 24 - 1 := by omega
      -- a tie below the power of two goes to the even mantissa, which is the power
      have htie : |x / 2 ^ (104 : ℤ) - (2 ^ 24 - 1 : ℕ)| = 1 / 2 := by
        rw [abs_of_nonneg (by push_cast; linarith)]
        push_cast at hnear ⊢
        linarith
      exact absurd (h.nearest.even htie) (by decide)
  · have hx : (2 : ℚ) ^ (128 : ℤ) ≤ x :=
      (two_zpow_le (by omega)).trans (h.low.resolve_left (by omega))
    norm_num at hx ⊢
    constructor
    · intro _
      linarith
    · omega

namespace Binary32

/-- A finite number, and none is nearer to `x`. Mantissas are full, except with the smallest
exponent. -/
structure Nearest (x : ℚ) (m : ℕ) (q : ℤ) : Prop where
  mantissa_lt : m < 2 ^ 24
  exponent_ge : -149 ≤ q
  exponent_le : q ≤ 104
  full : 2 ^ 23 ≤ m ∨ q = -149
  closest : ∀ (k : ℕ) (p : ℤ), k < 2 ^ 24 → -149 ≤ p → |x - m * 2 ^ q| ≤ |x - k * 2 ^ p|

/-- A mantissa that was rounded up to a power of two goes to the next exponent. -/
theorem ofRatio_eq (negative : Bool) (hnum : 0 < num) (hden : 0 < den) :
    ∃ n q, OnGrid (num / den) n q ∧
      ofRatio negative num den =
        if 104 < q ∨ q = 104 ∧ n = 2 ^ 24 then .infinite negative
        else if n = 2 ^ 24 then .finite negative (2 ^ 23) (q + 1)
        else .finite negative n q := by
  refine ⟨_, _, onGrid_ratio hnum hden rfl, ?_⟩
  rw [ofRatio, if_neg (by omega)]
  dsimp only
  generalize max (ratioLog num den - 23) (-149) = q
  generalize roundTiesEven (num <<< (-q).toNat) (den <<< q.toNat) = n
  by_cases hn : n = 0x1000000
  · have hq : 104 < q ∨ q = 104 ↔ 104 < q + 1 := by omega
    simp [hn, hq]
  · simp [hn]

theorem ofRatio_of_limit_le (negative : Bool) (hden : 0 < den) (h : limit ≤ num / den) :
    ofRatio negative num den = .infinite negative := by
  have hnum : 0 < num := by
    by_contra hzero
    obtain rfl : num = 0 := by omega
    norm_num [limit] at h
  obtain ⟨n, q, hgrid, heq⟩ := ofRatio_eq negative hnum hden
  rw [heq, if_pos (hgrid.overflow_iff.mpr h)]

theorem ofRatio_of_lt_limit (negative : Bool) (hden : 0 < den) (h : (num / den : ℚ) < limit) :
    ∃ m q, ofRatio negative num den = .finite negative m q ∧ Nearest (num / den) m q := by
  rcases Nat.eq_zero_or_pos num with rfl | hnum
  · refine ⟨0, -149, by simp [ofRatio, zero], by decide, by decide, by decide, .inr rfl, ?_⟩
    intro k p _ _
    rw [Nat.cast_zero, zero_div, zero_mul, sub_zero, abs_zero]
    exact abs_nonneg _
  obtain ⟨n, q, hgrid, heq⟩ := ofRatio_eq negative hnum hden
  have hq : ¬ (104 < q ∨ q = 104 ∧ n = 2 ^ 24) :=
    fun hover => absurd (hgrid.overflow_iff.mp hover) (not_le.mpr h)
  have hle := hgrid.le
  have hge := hgrid.ge
  rw [if_neg hq] at heq
  by_cases hn : n = 2 ^ 24
  · rw [if_pos hn] at heq
    refine ⟨2 ^ 23, q + 1, heq, by decide, by omega, by omega, .inl le_rfl, ?_⟩
    intro k p hk hp
    have hcarry : ((2 ^ 23 : ℕ) : ℚ) * 2 ^ (q + 1) = n * 2 ^ q := by
      rw [hn, zpow_add₀ two_ne_zero, mul_comm (2 ^ q)]
      norm_num
      ring
    rw [hcarry]
    exact hgrid.closest hk hp
  · rw [if_neg hn] at heq
    refine ⟨n, q, heq, by omega, hge, by omega, ?_, fun k p hk hp => hgrid.closest hk hp⟩
    by_cases hmin : q = -149
    · exact .inr hmin
    · exact .inl (hgrid.full hmin)

end Binary32
end ScreenMarkup
