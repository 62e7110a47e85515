import Mathlib.Algebra.Order.Group.Abs
import Mathlib.Algebra.Order.Ring.Abs
import Mathlib.Logic.Function.Iterate
import Mathlib.Tactic.Linarith
import Mathlib.Tactic.Ring
import ScreenMarkup.Content.Canvas

/-!
# Lines

A line goes along its longer axis with every step, and along the other one when
it has drifted too far. The error term is the drift: it never gets beyond half
a pixel, in any of the eight directions, and this makes the line meet both
coordinates of its end at the same step.
-/

set_option autoImplicit false

namespace ScreenMarkup.Canvas

namespace LineStep

variable {x y sx sy : Int} {dx dy n i j : Nat} {s : LineStep}

/-! ## Steps -/

/-- After `n` steps from `(x, y)` the line has gone `i` pixels across and `j` down, all of the steps
along the longer axis, and it has drifted by at most half a pixel. -/
structure After (x y sx sy : Int) (dx dy n i j : Nat) (s : LineStep) : Prop where
  x : s.x = x + sx * i
  y : s.y = y + sy * j
  err : s.err = j * dx - i * dy + (dx - dy)
  drift : -(max dx dy : Int) ≤ 2 * (j * dx - i * dy) ∧ 2 * (j * dx - i * dy : Int) ≤ max dx dy
  across : dy ≤ dx → i = n
  down : dx ≤ dy → j = n
  across_le : i ≤ n
  down_le : j ≤ n

theorem after_start (x y sx sy : Int) (dx dy : Nat) :
    After x y sx sy dx dy 0 0 0 ⟨x, y, dx - dy⟩ where
  x := by simp
  y := by simp
  err := by simp
  drift := by simp
  across _ := rfl
  down _ := rfl
  across_le := le_rfl
  down_le := le_rfl

/-- The error term tells in time when to go along the other axis. -/
theorem After.advance (h : After x y sx sy dx dy n i j s) :
    ∃ i' j', After x y sx sy dx dy (n + 1) i' j' (s.advance dx (-dy) sx sy) ∧
      (i' = i ∨ i' = i + 1) ∧ (j' = j ∨ j' = j + 1) := by
  have herr := h.err
  have hdrift := h.drift
  have hacross := h.across
  have hdown := h.down
  have hi := h.across_le
  have hj := h.down_le
  -- one step changes the products of the drift by one factor
  have hproduct (k d : Nat) : ((k + 1 : Nat) : Int) * d = k * d + d := by push_cast; ring
  by_cases hx : -(dy : Int) ≤ 2 * s.err <;> by_cases hy : 2 * s.err ≤ dx
  · refine ⟨i + 1, j + 1, ⟨?_, ?_, ?_, ?_, ?_, ?_, ?_, ?_⟩, .inr rfl, .inr rfl⟩
    · simp [LineStep.advance, hx, h.x]; ring
    · simp [LineStep.advance, hy, h.y]; ring
    · simp only [LineStep.advance, hx, hy, hproduct]; simp; omega
    · rw [hproduct, hproduct]; omega
    all_goals omega
  · refine ⟨i + 1, j, ⟨?_, ?_, ?_, ?_, ?_, ?_, ?_, ?_⟩, .inr rfl, .inl rfl⟩
    · simp [LineStep.advance, hx, h.x]; ring
    · simp [LineStep.advance, hy, h.y]
    · simp only [LineStep.advance, hx, hy, hproduct]; simp; omega
    · rw [hproduct]; omega
    all_goals omega
  · refine ⟨i, j + 1, ⟨?_, ?_, ?_, ?_, ?_, ?_, ?_, ?_⟩, .inl rfl, .inr rfl⟩
    · simp [LineStep.advance, hx, h.x]
    · simp [LineStep.advance, hy, h.y]; ring
    · simp only [LineStep.advance, hx, hy, hproduct]; simp; omega
    · rw [hproduct]; omega
    all_goals omega
  · omega

end LineStep

/-! ## The steps from one point to another -/

variable {a b : Int × Int} {n : Nat}

theorem sign_cases (x y : Int) : sign x y = 1 ∧ x < y ∨ sign x y = -1 ∧ y ≤ x := by
  unfold sign
  split <;> omega

/-- A direction and a distance give the way from one coordinate to another. -/
theorem sign_mul_natAbs (x y : Int) : sign x y * (y - x).natAbs = y - x := by
  rcases sign_cases x y with ⟨hs, h⟩ | ⟨hs, h⟩ <;> rw [hs] <;> omega

namespace LineStep

def first (a b : Int × Int) : LineStep :=
  ⟨a.1, a.2, ((b.1 - a.1).natAbs : Int) - (b.2 - a.2).natAbs⟩

def toward (a b : Int × Int) (s : LineStep) : LineStep :=
  s.advance (b.1 - a.1).natAbs (-((b.2 - a.2).natAbs : Int)) (sign a.1 b.1) (sign a.2 b.2)

def nth (a b : Int × Int) (n : Nat) : LineStep := (toward a b)^[n] (first a b)

theorem nth_succ (a b : Int × Int) (n : Nat) : nth a b (n + 1) = (nth a b n).toward a b :=
  Function.iterate_succ_apply' _ _ _

/-- The line from `a` to `b` after `n` steps. -/
def Along (a b : Int × Int) (n i j : Nat) (s : LineStep) : Prop :=
  After a.1 a.2 (sign a.1 b.1) (sign a.2 b.2) (b.1 - a.1).natAbs (b.2 - a.2).natAbs n i j s

theorem along_nth (a b : Int × Int) (n : Nat) : ∃ i j, Along a b n i j (nth a b n) := by
  induction n with
  | zero => exact ⟨0, 0, after_start _ _ _ _ _ _⟩
  | succ n ih =>
    obtain ⟨i, j, h⟩ := ih
    obtain ⟨i', j', h', -, -⟩ := h.advance
    rw [nth_succ]
    exact ⟨i', j', h'⟩

/-- The next `count` steps are those that one gets by going on. -/
theorem run_eq (dx dy sx sy : Int) (count : Nat) (s : LineStep) :
    run dx dy sx sy count s =
      (List.range (count + 1)).map fun n => (advance dx dy sx sy)^[n] s := by
  induction count generalizing s with
  | zero => rfl
  | succ count ih =>
    rw [run, ih, List.range_succ_eq_map (n := count + 1), List.map_cons, List.map_map]
    rfl

end LineStep

open LineStep

/-- How many steps a line has. -/
def longer (a b : Int × Int) : Nat := max (b.1 - a.1).natAbs (b.2 - a.2).natAbs

def center (a b : Int × Int) (n : Nat) : Int × Int := ((nth a b n).x, (nth a b n).y)

theorem lineCenters_eq (a b : Int × Int) :
    lineCenters a.1 a.2 b.1 b.2 = (List.range (longer a b + 1)).map (center a b) := by
  rw [lineCenters, run_eq, List.map_map]
  rfl

/-- The pixels of a straight line: one more than its longer axis has steps, the ends included. From
each to the next it is at most one pixel on either axis, and one on the longer axis, and none of
them is more than half a pixel off the straight line. -/
structure Line (a b : Int × Int) (centers : List (Int × Int)) : Prop where
  length : (centers.length : Int) = max |b.1 - a.1| |b.2 - a.2| + 1
  start : centers.head? = some a
  stop : centers.getLast? = some b
  before : b ∉ centers.dropLast
  next : ∀ n p q, centers[n]? = some p → centers[n + 1]? = some q →
    (|q.1 - p.1| ≤ 1 ∧ |q.2 - p.2| ≤ 1) ∧
      (|b.2 - a.2| ≤ |b.1 - a.1| → |q.1 - p.1| = 1) ∧
      (|b.1 - a.1| ≤ |b.2 - a.2| → |q.2 - p.2| = 1)
  near : ∀ p ∈ centers, 2 * |(p.1 - a.1) * (b.2 - a.2) - (p.2 - a.2) * (b.1 - a.1)| ≤
    max |b.1 - a.1| |b.2 - a.2|

theorem eq_of_drift {d j k : Nat} (hd : 0 < d) (hlow : -(d : Int) ≤ 2 * (j * d - k * d))
    (hhigh : 2 * (j * d - k * d : Int) ≤ d) : j = k := by
  by_contra hne
  rcases Nat.lt_or_gt_of_ne hne with h | h
  · have hmul : (j + 1) * d ≤ k * d := Nat.mul_le_mul_right d h
    rw [Nat.add_mul] at hmul
    omega
  · have hmul : (k + 1) * d ≤ j * d := Nat.mul_le_mul_right d h
    rw [Nat.add_mul] at hmul
    omega

/-- With the last step on its longer axis the line has gone the whole way on the other one, since
it has drifted by less than one pixel. -/
theorem LineStep.Along.ends {i j : Nat} (h : Along a b (longer a b) i j (nth a b (longer a b))) :
    i = (b.1 - a.1).natAbs ∧ j = (b.2 - a.2).natAbs := by
  have hdrift := h.drift
  have hacross := h.across
  have hdown := h.down
  unfold longer at *
  generalize (b.1 - a.1).natAbs = dx at *
  generalize (b.2 - a.2).natAbs = dy at *
  rcases Nat.le_total dy dx with hle | hle
  · obtain rfl : i = dx := by omega
    rcases Nat.eq_zero_or_pos i with rfl | hpos
    · omega
    · rw [Int.mul_comm i dy] at hdrift
      exact ⟨rfl, eq_of_drift hpos (by omega) (by omega)⟩
  · obtain rfl : j = dy := by omega
    rcases Nat.eq_zero_or_pos j with rfl | hpos
    · omega
    · rw [Int.mul_comm j dx] at hdrift
      exact ⟨(eq_of_drift hpos (by omega) (by omega)).symm, rfl⟩

theorem center_longer (a b : Int × Int) : center a b (longer a b) = b := by
  obtain ⟨i, j, h⟩ := along_nth a b (longer a b)
  obtain ⟨rfl, rfl⟩ := h.ends
  have hx := h.x
  have hy := h.y
  rw [sign_mul_natAbs] at hx hy
  apply Prod.ext <;> simp [center, hx, hy]

theorem eq_of_way {x y : Int} {i : Nat} (h : x + sign x y * i = y) : i = (y - x).natAbs := by
  rcases sign_cases x y with ⟨hs, -⟩ | ⟨hs, -⟩ <;> rw [hs] at h <;> omega

/-- Before its last step the line has not gone the whole way on its longer axis. -/
theorem center_ne (hn : n < longer a b) : center a b n ≠ b := by
  obtain ⟨i, j, h⟩ := along_nth a b n
  intro hb
  have hi := eq_of_way (h.x.symm.trans (congrArg Prod.fst hb))
  have hj := eq_of_way (h.y.symm.trans (congrArg Prod.snd hb))
  have hacross := h.across
  have hdown := h.down
  unfold longer at hn
  omega

theorem abs_sign (x y : Int) : |sign x y| = 1 := by
  rcases sign_cases x y with ⟨hs, -⟩ | ⟨hs, -⟩ <;> rw [hs] <;> rfl

/-- The distance of two points that are reached in one direction. -/
theorem abs_way (x y z i j : Int) : |x + sign y z * i - (x + sign y z * j)| = |i - j| := by
  rw [add_sub_add_left_eq_sub, ← mul_sub, abs_mul, abs_sign, one_mul]

theorem abs_way_le (x y z : Int) (i : Nat) : |x + sign y z * i| ≤ |x| + i := by
  have hway := abs_add_le x (sign y z * i)
  rw [abs_mul, abs_sign, one_mul, Nat.abs_cast] at hway
  exact hway

/-- One step goes by at most one pixel on each axis, and by one on the longer axis. -/
theorem center_succ (a b : Int × Int) (n : Nat) :
    (|(center a b (n + 1)).1 - (center a b n).1| ≤ 1 ∧
      |(center a b (n + 1)).2 - (center a b n).2| ≤ 1) ∧
    (|b.2 - a.2| ≤ |b.1 - a.1| → |(center a b (n + 1)).1 - (center a b n).1| = 1) ∧
    (|b.1 - a.1| ≤ |b.2 - a.2| → |(center a b (n + 1)).2 - (center a b n).2| = 1) := by
  obtain ⟨i, j, h⟩ := along_nth a b n
  obtain ⟨i', j', h', hi, hj⟩ := h.advance
  have hcenter : center a b n = (a.1 + sign a.1 b.1 * i, a.2 + sign a.2 b.2 * j) := by
    rw [center, h.x, h.y]
  have hnext : center a b (n + 1) = (a.1 + sign a.1 b.1 * i', a.2 + sign a.2 b.2 * j') := by
    rw [center, nth_succ, ← h'.x, ← h'.y]
    rfl
  have hacross := h.across
  have hdown := h.down
  have hacross' := h'.across
  have hdown' := h'.down
  rw [hcenter, hnext, abs_way, abs_way]
  simp only [Int.abs_eq_natAbs]
  omega

/-- How far a pixel is from the straight line is the drift. -/
theorem center_near (a b : Int × Int) (n : Nat) :
    2 * |((center a b n).1 - a.1) * (b.2 - a.2) - ((center a b n).2 - a.2) * (b.1 - a.1)| ≤
      max |b.1 - a.1| |b.2 - a.2| := by
  obtain ⟨i, j, h⟩ := along_nth a b n
  have hx : (center a b n).1 - a.1 = sign a.1 b.1 * i := by simp [center, h.x]
  have hy : (center a b n).2 - a.2 = sign a.2 b.2 * j := by simp [center, h.y]
  have hfactor : ((center a b n).1 - a.1) * (b.2 - a.2) - ((center a b n).2 - a.2) * (b.1 - a.1) =
      sign a.1 b.1 * sign a.2 b.2 * (i * (b.2 - a.2).natAbs - j * (b.1 - a.1).natAbs) := by
    calc ((center a b n).1 - a.1) * (b.2 - a.2) - ((center a b n).2 - a.2) * (b.1 - a.1)
        = sign a.1 b.1 * i * (sign a.2 b.2 * (b.2 - a.2).natAbs) -
            sign a.2 b.2 * j * (sign a.1 b.1 * (b.1 - a.1).natAbs) := by
          rw [hx, hy, sign_mul_natAbs, sign_mul_natAbs]
      _ = sign a.1 b.1 * sign a.2 b.2 *
            (i * (b.2 - a.2).natAbs - j * (b.1 - a.1).natAbs) := by ring
  have hdrift := h.drift
  rw [hfactor, abs_mul, abs_mul, abs_sign, abs_sign, one_mul, one_mul]
  simp only [Int.abs_eq_natAbs]
  omega

theorem line_lineCenters (a b : Int × Int) : Line a b (lineCenters a.1 a.2 b.1 b.2) := by
  have hlonger : (longer a b : Int) = max |b.1 - a.1| |b.2 - a.2| := by
    simp only [Int.abs_eq_natAbs, longer]
    omega
  rw [lineCenters_eq]
  refine ⟨?_, ?_, ?_, ?_, ?_, ?_⟩
  · simp [hlonger]
  · simp [List.range_succ_eq_map, center, nth, first]
  · simp [List.range_succ, center_longer]
  · intro hmem
    simp only [List.range_succ, List.map_append, List.map_cons, List.map_nil,
      List.dropLast_concat, List.mem_map, List.mem_range] at hmem
    obtain ⟨n, hn, hb⟩ := hmem
    exact center_ne hn hb
  · intro n p q hp hq
    simp only [List.getElem?_map, Option.map_eq_some_iff, List.getElem?_eq_some_iff,
      List.getElem_range] at hp hq
    obtain ⟨_, ⟨-, rfl⟩, rfl⟩ := hp
    obtain ⟨_, ⟨-, rfl⟩, rfl⟩ := hq
    exact center_succ a b n
  · intro p hp
    obtain ⟨n, -, rfl⟩ := List.mem_map.mp hp
    exact center_near a b n

/-! ## The loop -/

section Loop

variable {α : Type} {next : LineStep → Option LineStep} {visit : α → Int × Int → Option α}

/-- From its `n`-th step on, the loop goes on for the steps that are left, and no longer. -/
theorem along?_nth (hnext : ∀ n < longer a b, next (nth a b n) = some (nth a b (n + 1)))
    {k count : Nat} (hk : n + k = longer a b) (x : α) :
    along? b next visit count (nth a b n) x =
      if k ≤ count then ((List.range' n (k + 1)).map (center a b)).foldlM visit x else none := by
  induction k generalizing n count x with
  | zero =>
    obtain rfl : n = longer a b := hk
    have hb : (nth a b (longer a b)).x = b.1 ∧ (nth a b (longer a b)).y = b.2 :=
      Prod.ext_iff.mp (center_longer a b)
    rw [along?]
    simp [hb, center]
  | succ k ih =>
    have hn : n < longer a b := by omega
    have hb : ¬ ((nth a b n).x = b.1 ∧ (nth a b n).y = b.2) :=
      fun h => center_ne hn (Prod.ext h.1 h.2)
    rw [along?]
    cases count with
    | zero => simp [hb]
    | succ count =>
      have hrest (y : α) : along? b next visit count (nth a b (n + 1)) y = _ := ih (by omega) y
      rw [List.range'_succ, List.map_cons, List.foldlM_cons]
      by_cases hle : k ≤ count
      · simp [hb, hnext n hn, hrest, hle, center]
      · simp [hb, hnext n hn, hrest, hle]

/-- The loop ends at its goal after the steps of the line, however many are allowed. On its way it
visits the centers and nothing else. -/
theorem along?_eq (hnext : ∀ n < longer a b, next (nth a b n) = some (nth a b (n + 1)))
    (count : Nat) (x : α) :
    along? b next visit count (first a b) x =
      if longer a b ≤ count then (lineCenters a.1 a.2 b.1 b.2).foldlM visit x else none := by
  rw [lineCenters_eq, List.range_eq_range']
  exact along?_nth hnext (Nat.zero_add _) x

theorem along?_toward (a b : Int × Int) (count : Nat) (x : α) :
    along? b (fun s => some (s.toward a b)) visit count (first a b) x =
      if longer a b ≤ count then (lineCenters a.1 a.2 b.1 b.2).foldlM visit x else none :=
  along?_eq (fun n _ => by rw [nth_succ]) count x

end Loop

end ScreenMarkup.Canvas
