import Mathlib.Tactic.Linarith
import ScreenMarkup.Content.Canvas

/-!
# What drawing paints

Drawing gives one color to the pixels of an area and leaves all others. For
every operation that area is its shape in the plane, cut off at the edges of
the canvas.
-/

set_option autoImplicit false

namespace ScreenMarkup.Canvas

variable {c d e : Canvas} {argb : UInt32} {A B : Int → Int → Prop} {x y : Nat} {px py : Int}

theorem contains_iff :
    c.contains px py = true ↔ 0 ≤ px ∧ 0 ≤ py ∧ px < c.width ∧ py < c.height := by
  simp [contains, and_assoc]

theorem pixel?_eq_none (hc : ¬ c.contains px py = true) : c.pixel? px py = none := by
  rw [pixel?, if_neg hc]

theorem pixel?_eq (hc : c.contains px py = true) :
    c.pixel? px py = c.pixels[c.position px.toNat py.toNat]? := by
  rw [pixel?, if_pos hc]

theorem position_lt (hx : x < c.width) (hy : y < c.height) :
    c.position x y < c.width * c.height := by
  rw [position]
  nlinarith

theorem position_inj {x' y' : Nat} (hx : x < c.width) (hx' : x' < c.width)
    (hp : c.position x y = c.position x' y') : x = x' ∧ y = y' := by
  have hmod := congrArg (· % c.width) hp
  simp only [position, Nat.mul_add_mod_self_right, Nat.mod_eq_of_lt hx,
    Nat.mod_eq_of_lt hx'] at hmod
  have hw : 0 < c.width := by omega
  refine ⟨hmod, Nat.eq_of_mul_eq_mul_right hw ?_⟩
  rw [position, position, hmod] at hp
  omega

/-- The canvas keeps its size, the pixels of the area get the color, and all others stay. -/
structure Paints (A : Int → Int → Prop) (argb : UInt32) (c d : Canvas) : Prop where
  width : d.width = c.width
  height : d.height = c.height
  inside : ∀ px py, c.contains px py = true → A px py → d.pixel? px py = some argb
  outside : ∀ px py, ¬ A px py → d.pixel? px py = c.pixel? px py

theorem Paints.contains (hp : Paints A argb c d) (px py : Int) :
    d.contains px py = c.contains px py := by
  rw [Canvas.contains, Canvas.contains, hp.width, hp.height]

theorem Paints.nothing (c : Canvas) (argb : UInt32) : Paints (fun _ _ => False) argb c c :=
  ⟨rfl, rfl, fun _ _ _ h => h.elim, fun _ _ _ => rfl⟩

theorem Paints.trans (h₁ : Paints A argb c d) (h₂ : Paints B argb d e) :
    Paints (fun px py => A px py ∨ B px py) argb c e where
  width := h₂.width.trans h₁.width
  height := h₂.height.trans h₁.height
  inside px py hc hab := by
    by_cases hb : B px py
    · exact h₂.inside px py ((h₁.contains px py).trans hc) hb
    · rw [h₂.outside px py hb]
      exact h₁.inside px py hc (hab.resolve_right hb)
  outside px py hab := by
    rw [h₂.outside px py fun hb => hab (.inr hb), h₁.outside px py fun ha => hab (.inl ha)]

/-- What counts of an area is what lies on the canvas. -/
theorem Paints.congr (hp : Paints A argb c d)
    (hab : ∀ px py, c.contains px py = true → (B px py ↔ A px py)) : Paints B argb c d where
  width := hp.width
  height := hp.height
  inside px py hc hb := hp.inside px py hc ((hab px py hc).mp hb)
  outside px py hb := by
    by_cases hc : c.contains px py = true
    · exact hp.outside px py fun ha => hb ((hab px py hc).mpr ha)
    · rw [pixel?_eq_none hc, pixel?_eq_none fun hd => hc ((hp.contains px py).symm.trans hd)]

/-! ## Pixels and boxes -/

theorem put_paints (hx : x < c.width) (hy : y < c.height) (argb : UInt32) :
    Paints (fun px py => px = x ∧ py = y) argb c (c.put x y argb) where
  width := rfl
  height := rfl
  inside px py hc hxy := by
    obtain ⟨rfl, rfl⟩ := hxy
    rw [pixel?_eq (c := c.put x y argb) hc]
    exact Vector.getElem?_setIfInBounds_self_of_lt (position_lt hx hy)
  outside px py hxy := by
    by_cases hc : c.contains px py = true
    · rw [pixel?_eq (c := c.put x y argb) hc, pixel?_eq hc]
      apply Vector.getElem?_setIfInBounds_ne
      intro hp
      have hin := contains_iff.mp hc
      obtain ⟨hpx, hpy⟩ := position_inj hx (by omega) hp
      omega
    · rw [pixel?_eq_none hc, pixel?_eq_none (c := c.put x y argb) hc]

theorem paintRow_paints (chosen : Nat → Bool) (argb : UInt32) (n : Nat)
    (hx : ∀ i < n, x + i < c.width) (hy : y < c.height) :
    Paints (fun px py => py = y ∧ x ≤ px ∧ px < x + n ∧ chosen px.toNat = true) argb c
      (paintRow chosen argb y n x c) := by
  induction n generalizing x c with
  | zero =>
    exact (Paints.nothing c argb).congr fun px py _ => ⟨fun ⟨_, h₁, h₂, _⟩ => by omega, False.elim⟩
  | succ n ih =>
    have hfirst : Paints (fun px py => (px = x ∧ py = y) ∧ chosen x = true) argb c
        (if chosen x then c.put x y argb else c) := by
      by_cases hchosen : chosen x = true
      · rw [if_pos hchosen]
        exact (put_paints (hx 0 (by omega)) hy argb).congr fun px py _ => by simp [hchosen]
      · rw [if_neg hchosen]
        exact (Paints.nothing c argb).congr fun px py _ => by simp [hchosen]
    have hrest := ih (x := x + 1) (c := if chosen x then c.put x y argb else c)
      (fun i hi => by
        have hi' := hx (i + 1) (by omega)
        rw [hfirst.width]
        omega)
      (by rw [hfirst.height]; exact hy)
    refine (hfirst.trans hrest).congr fun px py _ => ?_
    by_cases hp : px = x
    · simp [hp]
    · have hne : (x : Int) ≤ px ↔ ((x + 1 : Nat) : Int) ≤ px := by omega
      simp [hp, hne]
      omega

theorem paintRows_paints (chosen : Nat → Nat → Bool) (argb : UInt32) (columns rows : Nat)
    (hx : ∀ i < columns, x + i < c.width) (hy : ∀ i < rows, y + i < c.height) :
    Paints (fun px py => x ≤ px ∧ px < x + columns ∧ y ≤ py ∧ py < y + rows ∧
      chosen px.toNat py.toNat = true) argb c (paintRows chosen argb x columns rows y c) := by
  induction rows generalizing y c with
  | zero =>
    exact (Paints.nothing c argb).congr fun px py _ =>
      ⟨fun ⟨_, _, h₁, h₂, _⟩ => by omega, False.elim⟩
  | succ n ih =>
    have hyc : y < c.height := by simpa using hy 0 (by omega)
    have hfirst := paintRow_paints (chosen · y) argb columns hx hyc
    have hrest := ih (y := y + 1) (c := paintRow (chosen · y) argb y columns x c)
      (by rw [hfirst.width]; exact hx)
      (fun i hi => by
        have hi' := hy (i + 1) (by omega)
        rw [hfirst.height]
        omega)
    refine (hfirst.trans hrest).congr fun px py _ => ?_
    by_cases hp : py = y
    · simp [hp]
    · have hne : (y : Int) ≤ py ↔ ((y + 1 : Nat) : Int) ≤ py := by omega
      simp [hp, hne]
      omega

theorem paintBox_paints (c : Canvas) (x1 y1 x2 y2 : Int) (chosen : Nat → Nat → Bool)
    (argb : UInt32) :
    Paints (fun px py => x1 ≤ px ∧ px ≤ x2 ∧ y1 ≤ py ∧ py ≤ y2 ∧
      chosen px.toNat py.toNat = true) argb c (c.paintBox x1 y1 x2 y2 chosen argb) := by
  have hrows := paintRows_paints (c := c) (x := (max x1 0).toNat) (y := (max y1 0).toNat) chosen
    argb (min x2 (c.width - 1) + 1 - max x1 0).toNat (min y2 (c.height - 1) + 1 - max y1 0).toNat
    (fun i hi => by omega) (fun i hi => by omega)
  refine hrows.congr fun px py hc => ?_
  have hin := contains_iff.mp hc
  constructor
  · rintro ⟨h₁, h₂, h₃, h₄, hchosen⟩
    exact ⟨by omega, by omega, by omega, by omega, hchosen⟩
  · rintro ⟨h₁, h₂, h₃, h₄, hchosen⟩
    exact ⟨by omega, by omega, by omega, by omega, hchosen⟩

/-! ## Operations -/

theorem clear_paints (c : Canvas) (rgb : Nat) :
    Paints (fun _ _ => True) (opaqueColor rgb) c (c.clear rgb) where
  width := rfl
  height := rfl
  inside px py hc _ := by
    have hin := contains_iff.mp hc
    rw [pixel?_eq (c := c.clear rgb) hc]
    refine (Vector.getElem?_replicate ..).trans (if_pos ?_)
    exact position_lt (c := c) (by omega) (by omega)
  outside _ _ h := absurd trivial h

theorem fillRect_paints (c : Canvas) (x y w h : Int) (rgb : Nat) :
    Paints (fun px py => x ≤ px ∧ px < x + w ∧ y ≤ py ∧ py < y + h) (opaqueColor rgb) c
      (c.fillRect x y w h rgb) :=
  (c.paintBox_paints x y (x + w - 1) (y + h - 1) (fun _ _ => true) _).congr fun px py _ => by
    simp only [and_true]
    omega

theorem setPixel_paints (c : Canvas) (x y : Int) (rgb : Nat) :
    Paints (fun px py => px = x ∧ py = y) (opaqueColor rgb) c (c.setPixel x y rgb) := by
  by_cases hc : c.contains x y = true
  · have hin := contains_iff.mp hc
    rw [setPixel, if_pos hc]
    exact (put_paints (c := c) (by omega) (by omega) _).congr fun px py _ => by omega
  · rw [setPixel, if_neg hc]
    refine (Paints.nothing c _).congr fun px py hp => ?_
    simp only [iff_false]
    rintro ⟨rfl, rfl⟩
    exact hc hp

/-- A point of a disc lies in the square around it. -/
theorem abs_le_of_sq_add_sq_le {dx dy r : Int} (hr : 0 ≤ r) (hd : dx * dx + dy * dy ≤ r * r) :
    -r ≤ dx ∧ dx ≤ r := by
  constructor <;> nlinarith [mul_self_nonneg dx, mul_self_nonneg dy]

theorem fillCircle_paints (c : Canvas) (cx cy r : Int) (rgb : Nat) :
    Paints (fun px py => 0 ≤ r ∧ (px - cx) * (px - cx) + (py - cy) * (py - cy) ≤ r * r)
      (opaqueColor rgb) c (c.fillCircle cx cy r rgb) := by
  by_cases hr : r < 0
  · rw [fillCircle, if_pos hr]
    exact (Paints.nothing c _).congr fun px py _ => ⟨fun h => hr.not_ge h.1, False.elim⟩
  · rw [fillCircle, if_neg hr]
    refine (c.paintBox_paints _ _ _ _ _ _).congr fun px py hc => ?_
    have hin := contains_iff.mp hc
    rw [decide_eq_true_eq, Int.toNat_of_nonneg hin.1, Int.toNat_of_nonneg hin.2.1]
    constructor
    · rintro ⟨hr, hd⟩
      obtain ⟨hx₁, hx₂⟩ := abs_le_of_sq_add_sq_le hr hd
      obtain ⟨hy₁, hy₂⟩ := abs_le_of_sq_add_sq_le hr (by rw [add_comm]; exact hd)
      exact ⟨by omega, by omega, by omega, by omega, hd⟩
    · rintro ⟨-, -, -, -, hd⟩
      exact ⟨by omega, hd⟩

end ScreenMarkup.Canvas
