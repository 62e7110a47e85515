import Mathlib.Data.List.Induction
import ScreenMarkup.Proofs.Content.Raster

/-!
# The picture that a run of drawing makes

A point has the color of the last thing drawn over it. The areas are sets of
points of the whole plane, so a picture does not depend on the canvas; the
canvas shows its part of it.
-/

set_option autoImplicit false

namespace ScreenMarkup

variable {c : Canvas}

/-! ## Areas and colors -/

/-- The points that it covers. -/
def Draw.Covers (d : Draw) (px py : Int) : Prop :=
  match d with
  | clear _ => True
  | fillRect x y w h _ =>
    x.toInt ≤ px ∧ px < x.toInt + w.toInt ∧ y.toInt ≤ py ∧ py < y.toInt + h.toInt
  | setPixel x y _ => px = x.toInt ∧ py = y.toInt
  | fillCircle x y radius _ =>
    0 ≤ radius.toInt ∧
      (px - x.toInt) * (px - x.toInt) + (py - y.toInt) * (py - y.toInt) ≤
        radius.toInt * radius.toInt

instance (d : Draw) (px py : Int) : Decidable (d.Covers px py) :=
  match d with
  | .clear _ => instDecidableTrue
  | .fillRect .. | .setPixel .. | .fillCircle .. => instDecidableAnd

def Draw.rgb (d : Draw) : UInt32 :=
  match d with
  | clear rgb => rgb
  | fillRect _ _ _ _ rgb => rgb
  | setPixel _ _ rgb => rgb
  | fillCircle _ _ _ rgb => rgb

/-- The last one that covers a point. -/
def lastCovering? (ds : List Draw) (px py : Int) : Option Draw :=
  ds.reverse.find? fun d => d.Covers px py

/-- The color of a point. -/
def shade (background : UInt32) (ds : List Draw) (px py : Int) : UInt32 :=
  Raster.opaqueColor (((lastCovering? ds px py).map Draw.rgb).getD background)

/-- What is drawn last decides about the points it covers, and about no others. -/
theorem shade_append (background : UInt32) (ds : List Draw) (d : Draw) (px py : Int) :
    shade background (ds ++ [d]) px py =
      if d.Covers px py then Raster.opaqueColor d.rgb else shade background ds px py := by
  have hreverse : (ds ++ [d]).reverse = d :: ds.reverse := List.reverse_concat
  rw [shade, lastCovering?, hreverse]
  by_cases hd : d.Covers px py
  · have hfind : (d :: ds.reverse).find? (fun d => d.Covers px py) = some d :=
      List.find?_cons_of_pos (decide_eq_true hd)
    rw [hfind, if_pos hd]
    rfl
  · have hfind : (d :: ds.reverse).find? (fun d => d.Covers px py) = lastCovering? ds px py :=
      List.find?_cons_of_neg (by simpa using hd)
    rw [hfind, if_neg hd, shade]

/-! ## Drawing makes the picture -/

theorem Draw.onCanvas_paints (d : Draw) (c : Canvas) :
    Canvas.Paints d.Covers (Raster.opaqueColor d.rgb) c (d.onCanvas c) := by
  rw [Raster.opaqueColor_eq]
  cases d with
  | clear rgb => exact c.clear_paints rgb.toNat
  | fillRect x y w h rgb => exact c.fillRect_paints x.toInt y.toInt w.toInt h.toInt rgb.toNat
  | setPixel x y rgb => exact c.setPixel_paints x.toInt y.toInt rgb.toNat
  | fillCircle x y radius rgb =>
    exact c.fillCircle_paints x.toInt y.toInt radius.toInt rgb.toNat

/-- The canvas has its size, and each pixel on it has the color of the picture. -/
structure Canvas.Shows (c : Canvas) (width height : Nat) (picture : Int → Int → UInt32) : Prop where
  width_eq : c.width = width
  height_eq : c.height = height
  pixel : ∀ px py, c.contains px py = true → c.pixel? px py = some (picture px py)

theorem Canvas.Shows.contains_iff {width height : Nat} {picture : Int → Int → UInt32}
    (hc : c.Shows width height picture) {px py : Int} :
    c.contains px py = true ↔ 0 ≤ px ∧ 0 ≤ py ∧ px < width ∧ py < height := by
  rw [Canvas.contains_iff, hc.width_eq, hc.height_eq]

theorem Canvas.blank_shows (width height : Int32) (background : UInt32) :
    (Raster.blank width height background).Shows width.toInt.toNat height.toInt.toNat
      (shade background []) where
  width_eq := rfl
  height_eq := rfl
  pixel px py hc := by
    have hin := Canvas.contains_iff.mp hc
    rw [Canvas.pixel?_eq hc]
    refine (Vector.getElem?_replicate ..).trans (if_pos ?_)
    exact Canvas.position_lt (c := Raster.blank width height background) (by omega) (by omega)

theorem Canvas.Shows.draw {width height : Nat} {background : UInt32} {ds : List Draw}
    (hc : c.Shows width height (shade background ds)) (d : Draw) :
    (d.onCanvas c).Shows width height (shade background (ds ++ [d])) := by
  have hpaints := d.onCanvas_paints c
  refine ⟨hpaints.width.trans hc.width_eq, hpaints.height.trans hc.height_eq, fun px py hin => ?_⟩
  rw [hpaints.contains] at hin
  rw [shade_append]
  by_cases hd : d.Covers px py
  · rw [if_pos hd, hpaints.inside px py hin hd]
  · rw [if_neg hd, hpaints.outside px py hd, hc.pixel px py hin]

theorem Canvas.shows_foldl (width height : Int32) (background : UInt32) (ds : List Draw) :
    (ds.foldl (fun c d => d.onCanvas c) (Raster.blank width height background)).Shows
      width.toInt.toNat height.toInt.toNat (shade background ds) := by
  -- the last operation decides, so the run is taken apart at its end
  induction ds using List.reverseRecOn with
  | nil => exact Canvas.blank_shows width height background
  | append_singleton ds d ih =>
    rw [List.foldl_append]
    exact ih.draw d

theorem Canvas.byteCount_eq {width height : Int} (hw : 0 ≤ width) (hh : 0 ≤ height) :
    (Canvas.byteCount width height : Int) = width * height * 4 := by
  rw [Canvas.byteCount, Canvas.bytesPerPixel, Nat.cast_mul, Nat.cast_mul, Int.toNat_of_nonneg hw,
    Int.toNat_of_nonneg hh, Nat.cast_ofNat]

/-- A canvas in memory is created just when its size is positive, within the limit and granted.
After any drawing, which never leaves a word or the bytes, it has four bytes for each pixel and
shows the picture. -/
theorem Raster.draws_picture (width height : Int32) (background : UInt32) (limit : Nat)
    (granted : Nat → Bool) :
    ((∃ r, tryNew width height background limit granted = .ok r) ↔
      0 < width.toInt ∧ 0 < height.toInt ∧ width.toInt * height.toInt * 4 ≤ limit ∧
        granted (width.toInt * height.toInt * 4).toNat = true) ∧
    ∀ r, tryNew width height background limit granted = .ok r → ∀ ds : List Draw,
      ∃ t, r.draw? ds = some t ∧ (t.bytes.size : Int) = width.toInt * height.toInt * 4 ∧
        ∀ px py : Int32, t.pixelAt? px py = some
          (if 0 ≤ px.toInt ∧ px.toInt < width.toInt ∧ 0 ≤ py.toInt ∧ py.toInt < height.toInt then
            some (shade background ds px.toInt py.toInt)
          else none) := by
  constructor
  · constructor
    · rintro ⟨r, hr⟩
      obtain ⟨⟨hw, hh, hlimit, hgranted⟩, -⟩ := tryNew_eq_ok.mp hr
      rw [← Canvas.byteCount_eq hw.le hh.le]
      exact ⟨hw, hh, by omega, hgranted⟩
    · rintro ⟨hw, hh, hlimit, hgranted⟩
      rw [← Canvas.byteCount_eq hw.le hh.le] at hlimit hgranted
      exact ⟨_, tryNew_eq_ok.mpr ⟨⟨hw, hh, by omega, hgranted⟩, rfl⟩⟩
  · intro r hr ds
    obtain ⟨⟨hw, hh, -, -⟩, -⟩ := tryNew_eq_ok.mp hr
    obtain ⟨t, ht, hholds⟩ := (tryNew_holds hr).draw? ds
    have hshows := Canvas.shows_foldl width height background ds
    have hsize : t.bytes.size = Canvas.byteCount width.toInt height.toInt := by
      rw [hholds.size, hshows.width_eq, hshows.height_eq, Canvas.byteCount]
    refine ⟨t, ht, by rw [hsize, Canvas.byteCount_eq hw.le hh.le], fun px py => ?_⟩
    rw [hholds.pixelAt?]
    split
    next hin => rw [hshows.pixel px.toInt py.toInt (hshows.contains_iff.mpr (by omega))]
    next hout =>
      refine congrArg some (Canvas.pixel?_eq_none fun hc => hout ?_)
      have hin := hshows.contains_iff.mp hc
      omega

/-- Of two blue pixels the right one becomes red. -/
theorem Raster.two_pixels_picture :
    ∃ t, (Raster.mk 2 1 #[255, 0, 0, 255, 255, 0, 0, 255]).draw? [.setPixel 1 0 0xFF0000] = some t ∧
      t.pixelAt? 0 0 = some (some 0xFF0000FF) ∧ t.pixelAt? 1 0 = some (some 0xFFFF0000) ∧
      t.pixelAt? 2 0 = some none := by
  obtain ⟨t, ht, -, hpixel⟩ := (Raster.draws_picture 2 1 0x0000FF 8 fun _ => true).2
    ⟨2, 1, #[255, 0, 0, 255, 255, 0, 0, 255]⟩ (by decide) [.setPixel 1 0 0xFF0000]
  exact ⟨t, ht, (hpixel 0 0).trans (by decide), (hpixel 1 0).trans (by decide),
    (hpixel 2 0).trans (by decide)⟩

end ScreenMarkup
