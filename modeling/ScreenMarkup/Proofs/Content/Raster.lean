import ScreenMarkup.Content.Raster
import ScreenMarkup.Proofs.Content.Painting

/-!
# Canvases in memory are canvases

A raster that holds a canvas goes on holding it: every operation stays within
its words and within the bytes, and leaves the bytes of the canvas that the
same operation leaves.
-/

set_option autoImplicit false

namespace ScreenMarkup.Raster

variable {r : Raster} {c : Canvas} {n : Int} {m : Nat} {bytes : Array UInt8} {argb : UInt32}

/-! ## Words and bytes -/

theorem word?_eq (hn : -0x8000000000000000 ≤ n ∧ n ≤ 0x7FFFFFFFFFFFFFFF) : word? n = some n :=
  if_pos hn

theorem index?_eq (hm : m ≤ 0xFFFFFFFFFFFFFFFF) : index? m = some m := if_pos hm

theorem asIndex_eq (hm : m ≤ 0xFFFFFFFFFFFFFFFF) : asIndex m = m := by
  rw [asIndex, Int.emod_eq_of_lt (by omega) (by unfold maxIndex; omega), Int.toNat_natCast]

theorem toInt_range (x : Int32) : -0x80000000 ≤ x.toInt ∧ x.toInt < 0x80000000 :=
  ⟨x.le_toInt, x.toInt_lt⟩

theorem ofBytes_byteOf (argb : UInt32) :
    ofBytes (byteOf argb 0) (byteOf argb 1) (byteOf argb 2) (byteOf argb 3) = argb := by
  have hlt := argb.toNat_lt
  apply UInt32.ext
  simp only [ofBytes, byteOf, Nat.shiftRight_eq_div_pow, UInt8.toNat_ofNat', UInt32.toNat_ofNat']
  omega

/-- The color that covers, computed by bits and by numbers. -/
theorem opaqueColor_eq (rgb : UInt32) : opaqueColor rgb = Canvas.opaqueColor rgb.toNat := by
  apply UInt32.ext
  have hmod : rgb.toNat % 0x1000000 < 2 ^ 24 := Nat.mod_lt _ (by decide)
  have hand : rgb.toNat &&& 0xFFFFFF = rgb.toNat % 0x1000000 :=
    Nat.and_two_pow_sub_one_eq_mod rgb.toNat 24
  have hor : 0xFF000000 + rgb.toNat % 0x1000000 = 0xFF000000 ||| rgb.toNat % 0x1000000 :=
    Nat.two_pow_add_eq_or_of_lt hmod 0xFF
  rw [opaqueColor, Canvas.opaqueColor, UInt32.toNat_or, UInt32.toNat_and, UInt32.toNat_ofNat']
  show 0xFF000000 ||| (rgb.toNat &&& 0xFFFFFF) = _
  rw [hand, ← hor]
  exact (Nat.mod_eq_of_lt (by omega)).symm

theorem size_writePixel (bytes : Array UInt8) (start : Nat) (argb : UInt32) :
    (writePixel bytes start argb).size = bytes.size := by
  simp [writePixel]

theorem readPixel_writePixel {start : Nat} (hs : start + 4 ≤ bytes.size) (argb : UInt32) :
    readPixel (writePixel bytes start argb) start = argb := by
  have hbytes : readPixel (writePixel bytes start argb) start =
      ofBytes (byteOf argb 0) (byteOf argb 1) (byteOf argb 2) (byteOf argb 3) := by
    simp [readPixel, writePixel, show start < bytes.size by omega,
      show start + 1 < bytes.size by omega, show start + 2 < bytes.size by omega,
      show start + 3 < bytes.size by omega]
  rw [hbytes, ofBytes_byteOf]

theorem getElem?_writePixel_of_not_mem {start i : Nat} (hi : i < start ∨ start + 4 ≤ i)
    (argb : UInt32) : (writePixel bytes start argb)[i]? = bytes[i]? := by
  unfold writePixel
  rw [Array.getElem?_setIfInBounds_ne (by omega), Array.getElem?_setIfInBounds_ne (by omega),
    Array.getElem?_setIfInBounds_ne (by omega), Array.getElem?_setIfInBounds_ne (by omega)]

theorem readPixel_writePixel_of_ne {i j : Nat} (hij : i ≠ j) (argb : UInt32) :
    readPixel (writePixel bytes (i * Canvas.bytesPerPixel) argb) (j * Canvas.bytesPerPixel) =
      readPixel bytes (j * Canvas.bytesPerPixel) := by
  have hbyte (k : Nat) (hk : k < 4) :
      (writePixel bytes (i * Canvas.bytesPerPixel) argb)[j * Canvas.bytesPerPixel + k]? =
        bytes[j * Canvas.bytesPerPixel + k]? :=
    getElem?_writePixel_of_not_mem (by unfold Canvas.bytesPerPixel; omega) argb
  simp only [readPixel, hbyte 0 (by decide), hbyte 1 (by decide), hbyte 2 (by decide),
    hbyte 3 (by decide)]

/-! ## A raster and its canvas -/

/-- The raster has the size and the pixels of the canvas. -/
structure Holds (r : Raster) (c : Canvas) : Prop where
  width : r.width.toInt = c.width
  height : r.height.toInt = c.height
  size : r.bytes.size = c.width * c.height * Canvas.bytesPerPixel
  pixel : ∀ i < c.width * c.height,
    c.pixels[i]? = some (readPixel r.bytes (i * Canvas.bytesPerPixel))

theorem Holds.bounds (hr : r.Holds c) : c.width < 0x80000000 ∧ c.height < 0x80000000 := by
  have hw := toInt_range r.width
  have hh := toInt_range r.height
  rw [hr.width] at hw
  rw [hr.height] at hh
  omega

theorem Holds.contains (hr : r.Holds c) (x y : Int32) :
    r.contains x y = c.contains x.toInt y.toInt := by
  simp [Raster.contains, Canvas.contains, Int32.le_iff_toInt_le, Int32.lt_iff_toInt_lt, hr.width,
    hr.height]

theorem area_lt {a b : Nat} (ha : a < 0x80000000) (hb : b < 0x80000000) :
    a * b * 4 ≤ 0xFFFFFFFFFFFFFFFF - 4 := by
  have hab : a * b ≤ 0x7FFFFFFF * 0x7FFFFFFF := Nat.mul_le_mul (by omega) (by omega)
  omega

/-- The bytes of a pixel on the canvas are there. -/
theorem Holds.place? (hr : r.Holds c) {x y : Nat} (hx : x < c.width) (hy : y < c.height) :
    r.place? x y = some (c.position x y * Canvas.bytesPerPixel) := by
  have hbounds := hr.bounds
  have harea := area_lt hbounds.1 hbounds.2
  have hlt : c.position x y < c.width * c.height := Canvas.position_lt hx hy
  have hrow : y * c.width ≤ c.position x y := Nat.le_add_right _ _
  have hoffset : r.offset? x y = some (c.position x y * Canvas.bytesPerPixel) := by
    rw [offset?, hr.width, asIndex_eq (by omega), asIndex_eq (by omega), asIndex_eq (by omega),
      index?_eq (by omega), Option.bind_eq_bind, Option.bind_some]
    show (index? (c.position x y)).bind _ = _
    rw [index?_eq (by omega), Option.bind_some, index?_eq (by unfold Canvas.bytesPerPixel; omega)]
  rw [Raster.place?, hoffset, Option.bind_eq_bind, Option.bind_some,
    index?_eq (by unfold Canvas.bytesPerPixel; omega), Option.bind_some, if_pos]
  rw [hr.size]
  unfold Canvas.bytesPerPixel
  omega

theorem Holds.put? (hr : r.Holds c) {x y : Nat} (hx : x < c.width) (hy : y < c.height)
    (argb : UInt32) : ∃ t, r.put? x y argb = some t ∧ t.Holds (c.put x y argb) := by
  have hput : r.put? x y argb = some
      { r with bytes := writePixel r.bytes (c.position x y * Canvas.bytesPerPixel) argb } := by
    rw [Raster.put?, hr.place? hx hy, Option.bind_eq_bind, Option.bind_some]
  refine ⟨_, hput, hr.width, hr.height, (size_writePixel _ _ _).trans hr.size, fun i hi => ?_⟩
  have hlt : c.position x y < c.width * c.height := Canvas.position_lt hx hy
  by_cases hp : c.position x y = i
  · have hstart : i * Canvas.bytesPerPixel + 4 ≤ r.bytes.size := by
      rw [hr.size]
      unfold Canvas.bytesPerPixel
      omega
    rw [hp, readPixel_writePixel hstart]
    exact Vector.getElem?_setIfInBounds.trans (by rw [if_pos hp, if_pos hlt])
  · rw [readPixel_writePixel_of_ne hp, ← hr.pixel i hi]
    exact Vector.getElem?_setIfInBounds_ne hp

theorem Holds.pixelAt? (hr : r.Holds c) (x y : Int32) :
    r.pixelAt? x y = some (c.pixel? x.toInt y.toInt) := by
  by_cases hc : c.contains x.toInt y.toInt = true
  · have hin := Canvas.contains_iff.mp hc
    have hplace := hr.place? (x := x.toInt.toNat) (y := y.toInt.toNat) (by omega) (by omega)
    rw [Int.toNat_of_nonneg hin.1, Int.toNat_of_nonneg hin.2.1] at hplace
    rw [Raster.pixelAt?, hr.contains, if_pos hc, hplace, Canvas.pixel?_eq hc,
      hr.pixel _ (Canvas.position_lt (by omega) (by omega))]
    rfl
  · rw [Raster.pixelAt?, hr.contains, if_neg hc, Canvas.pixel?_eq_none hc]

theorem Holds.clear (hr : r.Holds c) (rgb : UInt32) : (r.clear rgb).Holds (c.clear rgb.toNat) := by
  refine ⟨hr.width, hr.height, Array.size_ofFn.trans hr.size, fun i hi => ?_⟩
  change i < c.width * c.height at hi
  have hbyte (k : Nat) (hk : k < 4) :
      (r.clear rgb).bytes[i * Canvas.bytesPerPixel + k]? = some (byteOf (opaqueColor rgb) k) := by
    have hlt : i * 4 + k < r.bytes.size := by
      rw [hr.size]
      unfold Canvas.bytesPerPixel
      omega
    have hsize : r.bytes.size / 4 * 4 = r.bytes.size := by
      rw [hr.size, Canvas.bytesPerPixel, Nat.mul_div_cancel _ (by decide)]
    have hmod : (i * 4 + k) % 4 = k := by omega
    rw [Raster.clear, Canvas.bytesPerPixel, Array.getElem?_ofFn, dif_pos hlt]
    dsimp only
    rw [hsize, if_pos hlt, hmod]
  have hcolor : readPixel (r.clear rgb).bytes (i * Canvas.bytesPerPixel) = opaqueColor rgb := by
    simp only [readPixel, hbyte 0 (by decide), hbyte 1 (by decide), hbyte 2 (by decide),
      hbyte 3 (by decide), Option.getD_some]
    exact ofBytes_byteOf _
  rw [hcolor, opaqueColor_eq]
  exact Vector.getElem?_replicate.trans (if_pos hi)

/-! ## Loops -/

/-- From every raster that holds a canvas of this size, `f` gets to one that holds what `g` makes
of the canvas. -/
def Follows (width height : Nat) (f : Raster → Option Raster) (g : Canvas → Canvas) : Prop :=
  ∀ r c, r.Holds c → c.width = width → c.height = height →
    ((g c).width = width ∧ (g c).height = height) ∧ ∃ t, f r = some t ∧ t.Holds (g c)

variable {width height x y columns rows : Nat} {f f' : Raster → Option Raster}
  {g g' : Canvas → Canvas} {step : Int → Raster → Option Raster}

theorem Follows.stay : Follows width height some fun c => c :=
  fun r _ hr hw hh => ⟨⟨hw, hh⟩, r, rfl, hr⟩

theorem Follows.bind (hf : Follows width height f g) (hf' : Follows width height f' g') :
    Follows width height (fun r => (f r).bind f') fun c => g' (g c) := by
  intro r c hr hw hh
  obtain ⟨⟨hw, hh⟩, t, ht, hr⟩ := hf r c hr hw hh
  dsimp only
  rw [ht]
  exact hf' t (g c) hr hw hh

theorem follows_put (hx : x < width) (hy : y < height) (argb : UInt32) :
    Follows width height (fun r => r.put? x y argb) fun c => c.put x y argb :=
  fun _ _ hr hw hh => ⟨⟨hw, hh⟩, hr.put? (hw ▸ hx) (hh ▸ hy) argb⟩

theorem follows_row {chosen : Nat → Bool} {argb : UInt32}
    (hstep : ∀ i, x ≤ i → i < x + columns →
      Follows width height (step i) fun c => if chosen i then c.put i y argb else c) :
    Follows width height (loop? step columns x) (Canvas.paintRow chosen argb y columns x) := by
  induction columns generalizing x with
  | zero => exact Follows.stay
  | succ n ih =>
    have hrest := ih (x := x + 1) fun i h₁ h₂ => hstep i (by omega) (by omega)
    exact (hstep x (by omega) (by omega)).bind hrest

theorem follows_rows {chosen : Nat → Nat → Bool} {argb : UInt32}
    (hstep : ∀ i, y ≤ i → i < y + rows →
      Follows width height (step i) (Canvas.paintRow (chosen · i) argb i columns x)) :
    Follows width height (loop? step rows y) (Canvas.paintRows chosen argb x columns rows y) := by
  induction rows generalizing y with
  | zero => exact Follows.stay
  | succ n ih =>
    have hrest := ih (y := y + 1) fun i h₁ h₂ => hstep i (by omega) (by omega)
    exact (hstep y (by omega) (by omega)).bind hrest

theorem range?_eq {first last : Int} (hfirst : 0 ≤ first) :
    range? step first last = loop? step (last + 1 - first).toNat (first.toNat : Int) := by
  funext r
  rw [range?, Int.toNat_of_nonneg hfirst]

/-- Two loops over a box on the canvas, which paint the chosen pixels. -/
theorem follows_box {chosen : Nat → Nat → Bool} {argb : UInt32} {x1 y1 x2 y2 : Int}
    {pixel : Int → Int → Raster → Option Raster}
    (hpixel : ∀ row col : Nat, y1 ≤ row → row ≤ y2 → x1 ≤ col → col ≤ x2 →
      row < height → col < width →
      Follows width height (pixel row col) fun c =>
        if chosen col row then c.put col row argb else c) :
    Follows width height
      (range? (fun row => range? (pixel row) (max x1 0) (min x2 (width - 1))) (max y1 0)
        (min y2 (height - 1)))
      fun c => c.paintBox x1 y1 x2 y2 chosen argb := by
  have hrows : Follows width height
      (range? (fun row => range? (pixel row) (max x1 0) (min x2 (width - 1))) (max y1 0)
        (min y2 (height - 1)))
      (Canvas.paintRows chosen argb (max x1 0).toNat (min x2 (width - 1) + 1 - max x1 0).toNat
        (min y2 (height - 1) + 1 - max y1 0).toNat (max y1 0).toNat) := by
    rw [range?_eq (by omega)]
    refine follows_rows fun row h₁ h₂ => ?_
    rw [range?_eq (by omega)]
    refine follows_row fun col h₃ h₄ => ?_
    exact hpixel row col (by omega) (by omega) (by omega) (by omega) (by omega) (by omega)
  intro r c hr hw hh
  have h := hrows r c hr hw hh
  rw [← hw, ← hh] at h ⊢
  exact h

/-! ## Operations -/

theorem loop?_congr {step' : Int → Raster → Option Raster} {n : Nat} {i : Int}
    (hstep : ∀ j, i ≤ j → j < i + n → step j = step' j) : loop? step n i = loop? step' n i := by
  induction n generalizing i with
  | zero => rfl
  | succ n ih =>
    funext r
    rw [loop?, loop?, hstep i (by omega) (by omega),
      ih fun j h₁ h₂ => hstep j (by omega) (by omega)]

theorem range?_congr {step' : Int → Raster → Option Raster} {first last : Int}
    (hstep : ∀ i, first ≤ i → i ≤ last → step i = step' i) :
    range? step first last = range? step' first last :=
  loop?_congr fun i h₁ h₂ => hstep i h₁ (by omega)

theorem range?_of_lt {first last : Int} (hlast : last < first) : range? step first last = some := by
  funext r
  rw [range?, Int.toNat_of_nonpos (by omega), loop?]

theorem range?_some (first last : Int) : range? (fun _ => some) first last = some := by
  suffices hloop : ∀ n i, loop? (fun _ => some) n i = some from hloop _ _
  intro n
  induction n with
  | zero => exact fun _ => rfl
  | succ n ih => exact fun i => ih (i + 1)

theorem fillSpan?_of_empty {x1 y1 x2 y2 : Int} (hempty : x2 < x1 ∨ y2 < y1) (argb : UInt32) :
    r.fillSpan? x1 y1 x2 y2 argb = some r := by
  rw [fillSpan?]
  rcases hempty with hx | hy
  · simp only [range?_of_lt hx]
    rw [range?_some]
  · rw [range?_of_lt hy]

theorem follows_fillRect (x y w h : Int32) (rgb : UInt32) :
    Follows width height (·.fillRect? x y w h rgb)
      (·.fillRect x.toInt y.toInt w.toInt h.toInt rgb.toNat) := by
  rintro r c hr rfl rfl
  have hbounds := hr.bounds
  have hx := toInt_range x
  have hy := toInt_range y
  have hw' := toInt_range w
  have hh' := toInt_range h
  have hspan : r.fillRect? x y w h rgb =
      r.fillSpan? (max x.toInt 0) (max y.toInt 0) (min (x.toInt + w.toInt - 1) (c.width - 1))
        (min (y.toInt + h.toInt - 1) (c.height - 1)) (opaqueColor rgb) := by
    have hlast (a b : Int) : min a b - 1 = min (a - 1) (b - 1) := by omega
    simp only [fillRect?, hr.width, hr.height, hlast,
      word?_eq (n := x.toInt + w.toInt) (by omega), word?_eq (n := y.toInt + h.toInt) (by omega),
      word?_eq (n := min (x.toInt + w.toInt - 1) (c.width - 1)) (by omega),
      word?_eq (n := min (y.toInt + h.toInt - 1) (c.height - 1)) (by omega), Option.bind_eq_bind,
      Option.bind_some]
    split
    next hempty => exact (fillSpan?_of_empty hempty _).symm
    next => rfl
  dsimp only
  rw [hspan, Canvas.fillRect, ← opaqueColor_eq]
  exact follows_box (fun row col _ _ _ _ hrow hcol => follows_put hcol hrow _) r c hr rfl rfl

theorem follows_setPixel (x y : Int32) (rgb : UInt32) :
    Follows width height (·.setPixel? x y rgb) (·.setPixel x.toInt y.toInt rgb.toNat) := by
  rintro r c hr rfl rfl
  dsimp only
  rw [setPixel?, hr.contains, Canvas.setPixel, ← opaqueColor_eq]
  by_cases hc : c.contains x.toInt y.toInt = true
  · have hin := Canvas.contains_iff.mp hc
    have hput := hr.put? (x := x.toInt.toNat) (y := y.toInt.toNat) (by omega) (by omega)
      (opaqueColor rgb)
    rw [Int.toNat_of_nonneg hin.1, Int.toNat_of_nonneg hin.2.1] at hput
    rw [if_pos hc, if_pos hc]
    exact ⟨⟨rfl, rfl⟩, hput⟩
  · rw [if_neg hc, if_neg hc]
    exact Follows.stay r c hr rfl rfl

/-- The squares of distances within a radius stay within a word, and so does their sum. -/
theorem putWithin?_eq {cx cy reach row col : Int} (hreach : reach < 0x80000000)
    (hrow : cy - reach ≤ row ∧ row ≤ cy + reach) (hcol : cx - reach ≤ col ∧ col ≤ cx + reach)
    (argb : UInt32) :
    putWithin? cx reach argb row (row - cy) col = fun r =>
      if (col - cx) * (col - cx) + (row - cy) * (row - cy) ≤ reach * reach then
        r.put? col row argb
      else some r := by
  have hsquare {d : Int} (hd : -reach ≤ d ∧ d ≤ reach) :
      0 ≤ d * d ∧ d * d ≤ 0x7FFFFFFF * 0x7FFFFFFF := by
    constructor <;> nlinarith
  have hdx := hsquare (d := col - cx) (by omega)
  have hdy := hsquare (d := row - cy) (by omega)
  have hr := hsquare (d := reach) (by omega)
  funext r
  simp only [putWithin?, word?_eq (n := col - cx) (by omega),
    word?_eq (n := (col - cx) * (col - cx)) (by omega),
    word?_eq (n := (row - cy) * (row - cy)) (by omega),
    word?_eq (n := (col - cx) * (col - cx) + (row - cy) * (row - cy)) (by omega),
    word?_eq (n := reach * reach) (by omega), Option.bind_eq_bind, Option.bind_some]

theorem follows_fillCircle (x y radius : Int32) (rgb : UInt32) :
    Follows width height (·.fillCircle? x y radius rgb)
      (·.fillCircle x.toInt y.toInt radius.toInt rgb.toNat) := by
  rintro r c hr rfl rfl
  have hbounds := hr.bounds
  have hx := toInt_range x
  have hy := toInt_range y
  have hradius := toInt_range radius
  have hneg : radius < 0 ↔ radius.toInt < 0 := Int32.lt_iff_toInt_lt
  by_cases hlt : radius.toInt < 0
  · dsimp only
    rw [fillCircle?, if_pos (hneg.mpr hlt), Canvas.fillCircle, if_pos hlt]
    exact Follows.stay r c hr rfl rfl
  · have hrange : r.fillCircle? x y radius rgb =
        range? (fun row => range? (putWithin? x.toInt radius.toInt (opaqueColor rgb) row
            (row - y.toInt)) (max (x.toInt - radius.toInt) 0)
            (min (x.toInt + radius.toInt) (c.width - 1)))
          (max (y.toInt - radius.toInt) 0) (min (y.toInt + radius.toInt) (c.height - 1)) r := by
      simp only [fillCircle?, if_neg (hneg.not.mpr hlt), hr.width, hr.height,
        word?_eq (n := y.toInt - radius.toInt) (by omega),
        word?_eq (n := y.toInt + radius.toInt) (by omega),
        word?_eq (n := x.toInt - radius.toInt) (by omega),
        word?_eq (n := x.toInt + radius.toInt) (by omega),
        word?_eq (n := (c.width : Int) - 1) (by omega),
        word?_eq (n := (c.height : Int) - 1) (by omega), Option.bind_eq_bind, Option.bind_some]
      refine congrFun (range?_congr fun row h₁ h₂ => ?_) r
      funext r
      rw [word?_eq (by omega), Option.bind_some]
    dsimp only
    rw [hrange, Canvas.fillCircle, if_neg hlt, ← opaqueColor_eq]
    refine follows_box (fun row col h₁ h₂ h₃ h₄ hrow hcol => ?_) r c hr rfl rfl
    rw [putWithin?_eq hradius.2 ⟨h₁, h₂⟩ ⟨h₃, h₄⟩]
    by_cases hd : ((col : Int) - x.toInt) * (col - x.toInt) + (row - y.toInt) * (row - y.toInt) ≤
        radius.toInt * radius.toInt
    · simp only [if_pos hd, decide_eq_true hd]
      exact follows_put hcol hrow _
    · simp only [if_neg hd, decide_eq_false hd]
      exact Follows.stay

/-! ## A new raster -/

/-- The canvas of a new raster. -/
def blank (width height : Int32) (background : UInt32) : Canvas where
  width := width.toInt.toNat
  height := height.toInt.toNat
  pixels := Vector.replicate _ (opaqueColor background)

theorem saturate_area (width height : Int32) :
    saturate (saturate (width.toInt.toNat * height.toInt.toNat) * Canvas.bytesPerPixel) =
      Canvas.byteCount width.toInt height.toInt := by
  have hw := toInt_range width
  have hh := toInt_range height
  have harea := area_lt (a := width.toInt.toNat) (b := height.toInt.toNat) (by omega) (by omega)
  rw [saturate, saturate, Canvas.byteCount, Canvas.bytesPerPixel, maxIndex]
  omega

/-- A raster with all its bytes holds the canvas that can be read from it. -/
theorem holds_canvas (hw : 0 ≤ r.width.toInt) (hh : 0 ≤ r.height.toInt)
    (hsize : r.bytes.size = Canvas.byteCount r.width.toInt r.height.toInt) : r.Holds r.canvas where
  width := (Int.toNat_of_nonneg hw).symm
  height := (Int.toNat_of_nonneg hh).symm
  size := hsize
  pixel _ hi := (Vector.getElem?_ofFn ..).trans (dif_pos hi)

/-- It holds no other one. -/
theorem Holds.canvas_eq (hr : r.Holds c) : r.canvas = c := by
  obtain ⟨cw, ch, pixels⟩ := c
  obtain rfl : r.width.toInt.toNat = cw := by rw [hr.width, Int.toNat_natCast]
  obtain rfl : r.height.toInt.toNat = ch := by rw [hr.height, Int.toNat_natCast]
  rw [canvas, Canvas.mk.injEq]
  refine ⟨rfl, rfl, heq_of_eq (Vector.ext fun i hi => ?_)⟩
  have hpixel := hr.pixel i hi
  rw [Vector.getElem?_eq_getElem hi, Option.some.injEq] at hpixel
  rw [Vector.getElem_ofFn]
  exact hpixel.symm

section New

variable {width height : Int32} {background : UInt32} {limit : Nat} {granted : Nat → Bool}

/-- All failures are one failure, which tells how many bytes were asked for. -/
theorem tryNew_eq :
    tryNew width height background limit granted =
      if 0 < width.toInt ∧ 0 < height.toInt ∧ Canvas.byteCount width.toInt height.toInt ≤ limit ∧
          granted (Canvas.byteCount width.toInt height.toInt) = true then
        .ok ((Raster.mk width height
          (Array.replicate (Canvas.byteCount width.toInt height.toInt) 0)).clear background)
      else .error (.canvasAllocation (Canvas.byteCount width.toInt height.toInt)) := by
  have hwidth : width ≤ 0 ↔ width.toInt ≤ 0 := Int32.le_iff_toInt_le
  have hheight : height ≤ 0 ↔ height.toInt ≤ 0 := Int32.le_iff_toInt_le
  simp only [tryNew, saturate_area, hwidth, hheight]
  split
  next hbad => rw [if_neg fun ⟨h₁, h₂, h₃, _⟩ => by omega]
  next hgood =>
    split
    next hgranted => rw [if_pos ⟨by omega, by omega, by omega, hgranted⟩]
    next hrefused => rw [if_neg fun ⟨_, _, _, h⟩ => hrefused h]

theorem tryNew_eq_ok :
    tryNew width height background limit granted = .ok r ↔
      (0 < width.toInt ∧ 0 < height.toInt ∧ Canvas.byteCount width.toInt height.toInt ≤ limit ∧
        granted (Canvas.byteCount width.toInt height.toInt) = true) ∧
      r = (Raster.mk width height
        (Array.replicate (Canvas.byteCount width.toInt height.toInt) 0)).clear background := by
  rw [tryNew_eq]
  split
  next hgood => rw [Except.ok.injEq, and_iff_right hgood, eq_comm]
  next hbad => exact ⟨nofun, fun h => absurd h.1 hbad⟩

theorem tryNew_holds (hr : tryNew width height background limit granted = .ok r) :
    r.Holds (blank width height background) := by
  obtain ⟨⟨hw, hh, -, -⟩, rfl⟩ := tryNew_eq_ok.mp hr
  have hzero := holds_canvas (r := ⟨width, height,
    Array.replicate (Canvas.byteCount width.toInt height.toInt) 0⟩) hw.le hh.le Array.size_replicate
  rw [blank, opaqueColor_eq]
  exact hzero.clear background

/-- Allocating in memory and allocating a canvas fail alike, and give the same pixels. -/
theorem map_canvas_tryNew (width height : Int32) (background : UInt32) (limit : Nat) :
    (tryNew width height background limit (· ≤ Canvas.addressable)).map canvas =
      Canvas.make width.toInt height.toInt background.toNat limit := by
  rw [Canvas.make]
  cases htry : tryNew width height background limit (· ≤ Canvas.addressable) with
  | ok r =>
    obtain ⟨⟨hw, hh, hlimit, hgranted⟩, -⟩ := tryNew_eq_ok.mp htry
    rw [decide_eq_true_eq] at hgranted
    rw [Except.map, (tryNew_holds htry).canvas_eq, blank, opaqueColor_eq, if_neg (by omega)]
  | error e =>
    rw [tryNew_eq] at htry
    split at htry
    next => cases htry
    next hbad =>
      rw [decide_eq_true_eq] at hbad
      cases htry
      rw [Except.map, if_pos (by omega)]

end New

end ScreenMarkup.Raster

/-! ## Runs -/

namespace ScreenMarkup

/-- What it paints on a canvas. -/
def Draw.onCanvas (d : Draw) (c : Canvas) : Canvas :=
  match d with
  | clear rgb => c.clear rgb.toNat
  | fillRect x y w h rgb => c.fillRect x.toInt y.toInt w.toInt h.toInt rgb.toNat
  | setPixel x y rgb => c.setPixel x.toInt y.toInt rgb.toNat
  | fillCircle x y radius rgb => c.fillCircle x.toInt y.toInt radius.toInt rgb.toNat

namespace Raster

variable {r : Raster} {c : Canvas} {width height : Nat}

/-- One operation stays within the words and the bytes. -/
theorem follows_perform? (d : Draw) : Follows width height d.perform? d.onCanvas := by
  cases d with
  | clear rgb => exact fun r c hr hw hh => ⟨⟨hw, hh⟩, r.clear rgb, rfl, hr.clear rgb⟩
  | fillRect x y w h rgb => exact follows_fillRect x y w h rgb
  | setPixel x y rgb => exact follows_setPixel x y rgb
  | fillCircle x y radius rgb => exact follows_fillCircle x y radius rgb

/-- So does a run of operations. -/
theorem follows_draw? (ds : List Draw) :
    Follows width height (·.draw? ds) (fun c => ds.foldl (fun c d => d.onCanvas c) c) := by
  induction ds with
  | nil => exact Follows.stay
  | cons d ds ih => exact (follows_perform? d).bind ih

theorem Holds.draw? (hr : r.Holds c) (ds : List Draw) :
    ∃ t, r.draw? ds = some t ∧ t.Holds (ds.foldl (fun c d => d.onCanvas c) c) :=
  (follows_draw? ds r c hr rfl rfl).2

/-- Drawing in memory and drawing on a canvas are the same. -/
theorem Holds.map_canvas_draw? (hr : r.Holds c) (ds : List Draw) :
    (r.draw? ds).map canvas = some (ds.foldl (fun c d => d.onCanvas c) c) := by
  obtain ⟨t, ht, hholds⟩ := hr.draw? ds
  rw [ht, Option.map_some, hholds.canvas_eq]

end Raster
end ScreenMarkup
