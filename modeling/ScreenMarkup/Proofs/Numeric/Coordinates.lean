import ScreenMarkup.Geometry
import ScreenMarkup.Proofs.Numeric.Rounding
import ScreenMarkup.Proofs.State.Canonical

/-!
# Coordinates of written integers

A coordinate is read in single precision, and half a pixel is added before the
fraction is dropped. Below `2 ^ 23` the sum is exact. From there on no number
has a fraction, and the sum, a tie, goes to the even one of the two integers
next to it.
-/

set_option autoImplicit false

namespace ScreenMarkup

open Numeric Text

namespace Binary32

variable {x : Binary32} {s : Bool} {v : ℚ} {n k num den : ℕ}

/-! ## Integers in single precision -/

/-- An integer that single precision has. -/
def Whole (n : ℕ) : Prop := ∃ m j : ℕ, m < 2 ^ 24 ∧ n = m * 2 ^ j

theorem Whole.even (h : Whole n) (hn : 2 ^ 24 ≤ n) : n % 2 = 0 := by
  obtain ⟨m, j, hm, rfl⟩ := h
  cases j with
  | zero => omega
  | succ j => rw [pow_succ, ← mul_assoc, Nat.mul_mod_left]

end Binary32

open Binary32

namespace Binary32

variable {x : Binary32} {s : Bool} {v : ℚ} {n k num den : ℕ}

/-! ## Half a pixel more -/

/-- What lies halfway between two integers is rounded to the even one, but only from where on single
precision has no fractions. -/
def settle (k : ℕ) : ℚ := if k < 2 ^ 23 then k + 1 / 2 else (k + k % 2 : ℕ)

end Binary32

/-! ## Written integers -/

end ScreenMarkup
