import ScreenMarkup.Proofs.Content.Line
import ScreenMarkup.Proofs.Content.Raster

/-!
# Drawing lines

A line is drawn with a square brush, which is stamped on each of its pixels.
The loop over them ends for any two points, and in memory the ends that
clipping leaves are so near that no distance leaves its word.
-/

set_option autoImplicit false

namespace ScreenMarkup

open Canvas LineStep

/-! ## What a brush paints -/

namespace Canvas

variable {c : Canvas} {argb : UInt32} {radius : Int}

/-- A point that the brush reaches from one of the centers. -/
def Brushed (centers : List (Int × Int)) (radius px py : Int) : Prop :=
  ∃ p ∈ centers, |px - p.1| ≤ radius ∧ |py - p.2| ≤ radius

instance (centers : List (Int × Int)) (radius px py : Int) :
    Decidable (Brushed centers radius px py) :=
  inferInstanceAs (Decidable (∃ p ∈ centers, |px - p.1| ≤ radius ∧ |py - p.2| ≤ radius))

theorem stamp_paints (c : Canvas) (radius : Int) (argb : UInt32) (p : Int × Int) :
    Paints (fun px py => |px - p.1| ≤ radius ∧ |py - p.2| ≤ radius) argb c
      (c.stamp radius argb p.1 p.2) :=
  (c.paintBox_paints _ _ _ _ (fun _ _ => true) argb).congr fun px py _ => by
    simp only [abs_le, and_true]
    omega

theorem stamps_paint (c : Canvas) (radius : Int) (argb : UInt32) (centers : List (Int × Int)) :
    Paints (Brushed centers radius) argb c
      (centers.foldl (fun c p => c.stamp radius argb p.1 p.2) c) := by
  induction centers generalizing c with
  | nil => exact (Paints.nothing c argb).congr fun px py _ => by simp [Brushed]
  | cons p centers ih =>
    exact ((c.stamp_paints radius argb p).trans (ih _)).congr fun px py _ => by simp [Brushed]

/-- Between any two points the loop ends, and it paints what the brush reaches from the line. -/
theorem along?_stamps (a b : Int × Int) (c : Canvas) (radius : Int) (argb : UInt32) :
    ∃ d, (∀ count ≥ longer a b,
        along? b (fun s => some (s.toward a b)) (fun c p => some (c.stamp radius argb p.1 p.2))
          count (first a b) c = some d) ∧
      Paints (Brushed (lineCenters a.1 a.2 b.1 b.2) radius) argb c d := by
  refine ⟨_, fun count hcount => ?_, stamps_paint c radius argb _⟩
  rw [along?_toward, if_pos hcount]
  exact List.foldlM_pure

/-- The points that a line covers: what the brush reaches from the part that clipping leaves. -/
def Drawn (c : Canvas) (x1 y1 x2 y2 thickness px py : Int) : Prop :=
  let radius := min (thickness.tdiv 2) (max c.width c.height)
  ∃ a b, c.clipSegment radius x1 y1 x2 y2 = some (a, b) ∧
    Brushed (lineCenters a.1 a.2 b.1 b.2) radius px py

theorem drawLine_paints (c : Canvas) (x1 y1 x2 y2 : Int) (rgb : Nat) (thickness : Int) :
    Paints (c.Drawn x1 y1 x2 y2 thickness) (opaqueColor rgb) c
      (c.drawLine x1 y1 x2 y2 rgb thickness) := by
  have hnothing {A : Int → Int → Prop} (hA : ∀ px py, ¬ A px py) : Paints A (opaqueColor rgb) c c :=
    (Paints.nothing c _).congr fun px py _ => iff_false_intro (hA px py)
  rw [drawLine]
  unfold Drawn
  dsimp only
  generalize min (thickness.tdiv 2) (max (c.width : Int) c.height) = radius
  by_cases hneg : radius < 0
  · rw [if_pos hneg]
    refine hnothing fun px py ⟨a, b, _, p, _, hp⟩ => ?_
    have hle := (abs_nonneg _).trans hp.1
    omega
  · rw [if_neg hneg]
    cases hclip : c.clipSegment radius x1 y1 x2 y2 with
    | none => exact hnothing fun px py ⟨a, b, h, _⟩ => nomatch h
    | some ends =>
      obtain ⟨a, b⟩ := ends
      refine (stamps_paint c radius _ _).congr fun px py _ => ⟨fun ⟨_, _, h, hbrushed⟩ => ?_,
        fun hbrushed => ⟨a, b, rfl, hbrushed⟩⟩
      cases h
      exact hbrushed

/-! ## Clipping -/

/-- A point so near that no distance of a line leaves its word. -/
structure Fits (p : Int × Int) : Prop where
  across : |p.1| ≤ 0x100000000
  down : |p.2| ≤ 0x100000000

/-- What clipping leaves of a line ends where the line does, or at the edge. -/
theorem clipSegment_fits {grow x1 y1 x2 y2 : Int} {a b : Int × Int}
    (ha : Fits (x1, y1)) (hb : Fits (x2, y2)) (hw : c.width < 0x80000000)
    (hh : c.height < 0x80000000) (hgrow : |grow| ≤ 0x80000000)
    (h : c.clipSegment grow x1 y1 x2 y2 = some (a, b)) : Fits a ∧ Fits b := by
  simp only [clipSegment, Option.bind_eq_bind, Option.bind_eq_some_iff, Option.some.injEq,
    Prod.mk.injEq] at h
  obtain ⟨k₁, -, k₂, -, k₃, -, k, -, hstart, hstop⟩ := h
  have hedge (x y : Int) : Fits (max (-grow) (min (c.width - 1 + grow) x),
      max (-grow) (min (c.height - 1 + grow) y)) := by
    rw [abs_le] at hgrow
    constructor <;> dsimp only <;> rw [abs_le] <;> omega
  constructor
  · rw [← hstart]
    split
    · exact hedge _ _
    · exact ha
  · rw [← hstop]
    split
    · exact hedge _ _
    · exact hb

end Canvas

/-! ## In memory -/

namespace Raster

variable {width height n : Nat} {radius : Int} {argb : UInt32} {a b : Int × Int}

theorem distance_le (ha : Fits a) (hb : Fits b) :
    |b.1 - a.1| ≤ 0x200000000 ∧ |b.2 - a.2| ≤ 0x200000000 := by
  have ha₁ := ha.across
  have ha₂ := ha.down
  have hb₁ := hb.across
  have hb₂ := hb.down
  simp only [abs_le] at ha₁ ha₂ hb₁ hb₂ ⊢
  omega

theorem nth_fits (ha : Fits a) (hb : Fits b) (hn : n ≤ longer a b) :
    |(nth a b n).x| ≤ 0x300000000 ∧ |(nth a b n).y| ≤ 0x300000000 ∧
      |(nth a b n).err| ≤ 0x600000000 := by
  obtain ⟨i, j, h⟩ := along_nth a b n
  obtain ⟨hdx, hdy⟩ := distance_le ha hb
  have hi := h.across_le
  have hj := h.down_le
  rw [Int.abs_eq_natAbs] at hdx hdy
  unfold longer at hn
  refine ⟨?_, ?_, ?_⟩
  · have hx := abs_way_le a.1 a.1 b.1 i
    rw [← h.x] at hx
    have hi' : (i : Int) ≤ 0x200000000 := by omega
    linarith [ha.across]
  · have hy := abs_way_le a.2 a.2 b.2 j
    rw [← h.y] at hy
    have hj' : (j : Int) ≤ 0x200000000 := by omega
    linarith [ha.down]
  · have herr := h.err
    have hdrift := h.drift
    rw [abs_le]
    omega

/-- A step of small numbers stays within its words. -/
theorem advance?_eq {dx dy sx sy : Int} {s : LineStep}
    (hdx : |dx| ≤ 0x200000000) (hdy : |dy| ≤ 0x200000000) (hsx : |sx| = 1) (hsy : |sy| = 1)
    (hs : |s.x| ≤ 0x300000000 ∧ |s.y| ≤ 0x300000000 ∧ |s.err| ≤ 0x600000000) :
    advance? dx dy sx sy s = some (s.advance dx dy sx sy) := by
  obtain ⟨hx, hy, herr⟩ := hs
  rw [abs_eq (by decide)] at hsx hsy
  simp only [abs_le] at hdx hdy hx hy herr
  have htwice := word?_eq (n := 2 * s.err) (by omega)
  have hleft := word?_eq (n := s.err + dy) (by omega)
  have hdown := word?_eq (n := s.err + dx) (by omega)
  have hboth := word?_eq (n := s.err + dy + dx) (by omega)
  have hcol := word?_eq (n := s.x + sx) (by omega)
  have hrow := word?_eq (n := s.y + sy) (by omega)
  by_cases hh : dy ≤ 2 * s.err <;> by_cases hv : 2 * s.err ≤ dx <;>
    simp [advance?, LineStep.advance, htwice, hh, hv, hleft, hdown, hboth, hcol, hrow]

/-- Within the line no step leaves its word. -/
theorem advance?_nth (ha : Fits a) (hb : Fits b) (hn : n < longer a b) :
    advance? (b.1 - a.1).natAbs (-(b.2 - a.2).natAbs) (sign a.1 b.1) (sign a.2 b.2) (nth a b n) =
      some (nth a b (n + 1)) := by
  obtain ⟨hdx, hdy⟩ := distance_le ha hb
  rw [nth_succ]
  apply advance?_eq
  · simpa using hdx
  · simpa using hdy
  · exact abs_sign _ _
  · exact abs_sign _ _
  · exact nth_fits ha hb hn.le

/-- In words the loop does what it does in numbers. -/
theorem stampLine?_eq (ha : Fits a) (hb : Fits b) (radius : Int) (argb : UInt32) (r : Raster) :
    r.stampLine? radius argb a b =
      (lineCenters a.1 a.2 b.1 b.2).foldlM (stamp? radius argb) r := by
  obtain ⟨hdx, hdy⟩ := distance_le ha hb
  simp only [abs_le] at hdx hdy
  rw [stampLine?, word?_eq (n := b.1 - a.1) (by omega), word?_eq (n := b.2 - a.2) (by omega)]
  simp only [Option.bind_eq_bind, Option.bind_some]
  rw [word?_eq (by omega), word?_eq (by omega)]
  simp only [Option.bind_some]
  rw [word?_eq (by omega), Option.bind_some]
  have hcount : (max ((b.1 - a.1).natAbs : Int) (b.2 - a.2).natAbs).toNat = longer a b := by
    unfold longer
    omega
  rw [hcount]
  exact (along?_eq (fun n hn => advance?_nth ha hb hn) _ r).trans (if_pos le_rfl)

theorem follows_stamp {p : Int × Int} (hradius : |radius| ≤ 0x80000000)
    (hx : |p.1| ≤ 0x300000000) (hy : |p.2| ≤ 0x300000000) (argb : UInt32) :
    Follows width height (fun r => stamp? radius argb r p)
      (fun c => c.stamp radius argb p.1 p.2) := by
  rintro r c hr rfl rfl
  have hbounds := hr.bounds
  simp only [abs_le] at hradius hx hy
  have hspan : stamp? radius argb r p =
      r.fillSpan? (max (p.1 - radius) 0) (max (p.2 - radius) 0)
        (min (p.1 + radius) (c.width - 1)) (min (p.2 + radius) (c.height - 1)) argb := by
    simp only [stamp?, hr.width, hr.height, word?_eq (n := p.1 - radius) (by omega),
      word?_eq (n := p.2 - radius) (by omega), word?_eq (n := p.1 + radius) (by omega),
      word?_eq (n := p.2 + radius) (by omega), Option.bind_eq_bind, Option.bind_some]
    split
    next => rfl
    next hempty => exact (fillSpan?_of_empty (by omega) argb).symm
  dsimp only
  rw [hspan, Canvas.stamp]
  exact follows_box (fun row col _ _ _ _ hrow hcol => follows_put hcol hrow _) r c hr rfl rfl

theorem follows_foldlM {centers : List (Int × Int)} {f : Raster → Int × Int → Option Raster}
    {g : Canvas → Int × Int → Canvas}
    (hstep : ∀ p ∈ centers, Follows width height (f · p) (g · p)) :
    Follows width height (centers.foldlM f ·) (centers.foldl g ·) := by
  induction centers with
  | nil => exact Follows.stay
  | cons p centers ih =>
    exact (hstep p List.mem_cons_self).bind (ih fun q hq => hstep q (List.mem_cons_of_mem p hq))

/-! ## Strokes -/

variable {r t : Raster} {c d : Canvas} {A : Int → Int → Prop}

/-- The pixels of the area have the color, and nothing else has changed. -/
structure Recolors (A : Int → Int → Prop) (argb : UInt32) (r t : Raster) : Prop where
  width : t.width = r.width
  height : t.height = r.height
  size : t.bytes.size = r.bytes.size
  inside : ∀ px py : Int32, r.contains px py = true → A px.toInt py.toInt →
    t.pixelAt? px py = some (some argb)
  outside : ∀ px py : Int32, ¬ A px.toInt py.toInt → t.pixelAt? px py = r.pixelAt? px py

theorem Holds.recolors (hr : r.Holds c) (ht : t.Holds d) (hp : Paints A argb c d) :
    Recolors A argb r t where
  width := Int32.toInt_inj.mp (by rw [ht.width, hp.width, hr.width])
  height := Int32.toInt_inj.mp (by rw [ht.height, hp.height, hr.height])
  size := by rw [ht.size, hp.width, hp.height, hr.size]
  inside px py hc hA := by
    rw [hr.contains] at hc
    rw [ht.pixelAt?, hp.inside _ _ hc hA]
  outside px py hA := by rw [ht.pixelAt?, hr.pixelAt?, hp.outside _ _ hA]

/-- Stamping along a line stays within the words and the bytes. -/
theorem Holds.stampLine? (hr : r.Holds c) (ha : Fits a) (hb : Fits b)
    (hradius : |radius| ≤ 0x80000000) (argb : UInt32) :
    ∃ t, r.stampLine? radius argb a b = some t ∧
      t.Holds ((lineCenters a.1 a.2 b.1 b.2).foldl (fun c p => c.stamp radius argb p.1 p.2) c) := by
  have hfollows : Follows c.width c.height
      ((lineCenters a.1 a.2 b.1 b.2).foldlM (stamp? radius argb) ·)
      ((lineCenters a.1 a.2 b.1 b.2).foldl fun c p => c.stamp radius argb p.1 p.2) := by
    apply follows_foldlM
    intro p hp
    rw [lineCenters_eq] at hp
    obtain ⟨n, hn, rfl⟩ := List.mem_map.mp hp
    obtain ⟨hx, hy, -⟩ := nth_fits ha hb (Nat.lt_succ_iff.mp (List.mem_range.mp hn))
    exact follows_stamp hradius hx hy argb
  rw [stampLine?_eq ha hb]
  exact (hfollows r c hr rfl rfl).2

/-- Drawing a line in memory and drawing it on a canvas are the same. -/
theorem Holds.drawLine? (hr : r.Holds c) (x1 y1 x2 y2 : Int32) (rgb : UInt32) (thickness : Int32) :
    ∃ t, r.drawLine? x1 y1 x2 y2 rgb thickness = some t ∧
      t.Holds (c.drawLine x1.toInt y1.toInt x2.toInt y2.toInt rgb.toNat thickness.toInt) := by
  have hbounds := hr.bounds
  have hthickness := toInt_range thickness
  have hhalf := Int.natAbs_tdiv_le_natAbs thickness.toInt 2
  have hradius : |min (thickness.toInt.tdiv 2) (max (c.width : Int) c.height)| ≤ 0x80000000 := by
    rw [abs_le]
    omega
  rw [Raster.drawLine?, Canvas.drawLine, hr.canvas_eq, hr.width, hr.height, ← opaqueColor_eq]
  generalize min (thickness.toInt.tdiv 2) (max (c.width : Int) c.height) = radius at hradius
  by_cases hneg : radius < 0
  · rw [if_pos hneg, if_pos hneg]
    exact ⟨r, rfl, hr⟩
  · rw [if_neg hneg, if_neg hneg]
    cases hclip : c.clipSegment radius x1.toInt y1.toInt x2.toInt y2.toInt with
    | none => exact ⟨r, rfl, hr⟩
    | some ends =>
      have hfits (x y : Int32) : Fits (x.toInt, y.toInt) := by
        have hx := toInt_range x
        have hy := toInt_range y
        constructor <;> dsimp only <;> rw [abs_le] <;> omega
      obtain ⟨ha, hb⟩ := clipSegment_fits (hfits x1 y1) (hfits x2 y2) hbounds.1 hbounds.2 hradius
        hclip
      exact hr.stampLine? ha hb hradius _

/-- A line goes straight from one end to the other, and its loop ends there, between any two points.
In memory no number leaves its word, and the brush paints what it reaches from the line, as far as
that is on the raster. -/
theorem draws_line :
    (∀ a b : Int × Int,
      Line a b (lineCenters a.1 a.2 b.1 b.2) ∧
      (∀ {α : Type} (visit : α → Int × Int → Option α) (count : Nat) (x : α),
        along? b (fun s => some (s.toward a b)) visit count (first a b) x =
          if longer a b ≤ count then (lineCenters a.1 a.2 b.1 b.2).foldlM visit x else none) ∧
      ∀ (c : Canvas) (radius : Int) (argb : UInt32), ∃ d,
        (∀ count ≥ longer a b,
          along? b (fun s => some (s.toward a b)) (fun c p => some (c.stamp radius argb p.1 p.2))
            count (first a b) c = some d) ∧
          Paints (Brushed (lineCenters a.1 a.2 b.1 b.2) radius) argb c d) ∧
    ∀ r : Raster, 0 ≤ r.width.toInt → 0 ≤ r.height.toInt →
      r.bytes.size = Canvas.byteCount r.width.toInt r.height.toInt →
      (∀ a b : Int × Int, Fits a → Fits b → ∀ radius : Int, |radius| ≤ 0x80000000 →
        ∀ argb : UInt32, ∃ t, r.stampLine? radius argb a b = some t ∧
          Recolors (Brushed (lineCenters a.1 a.2 b.1 b.2) radius) argb r t) ∧
      ∀ (x1 y1 x2 y2 : Int32) (rgb : UInt32) (thickness : Int32),
        ∃ t, r.drawLine? x1 y1 x2 y2 rgb thickness = some t ∧
          Recolors (r.canvas.Drawn x1.toInt y1.toInt x2.toInt y2.toInt thickness.toInt)
            (opaqueColor rgb) r t := by
  constructor
  · intro a b
    exact ⟨line_lineCenters a b, fun visit => along?_toward a b, along?_stamps a b⟩
  · intro r hw hh hsize
    have hr := holds_canvas hw hh hsize
    constructor
    · intro a b ha hb radius hradius argb
      obtain ⟨t, ht, hholds⟩ := hr.stampLine? ha hb hradius argb
      exact ⟨t, ht, hr.recolors hholds (stamps_paint _ _ _ _)⟩
    · intro x1 y1 x2 y2 rgb thickness
      obtain ⟨t, ht, hholds⟩ := hr.drawLine? x1 y1 x2 y2 rgb thickness
      have hpaints := r.canvas.drawLine_paints x1.toInt y1.toInt x2.toInt y2.toInt rgb.toNat
        thickness.toInt
      rw [← opaqueColor_eq] at hpaints
      exact ⟨t, ht, hr.recolors hholds hpaints⟩

/-- A slope on a raster of three by two pixels. -/
theorem draws_line_slope :
    ∃ t : Raster, (Raster.mk 3 2 (Array.replicate 24 0)).drawLine? 0 0 2 1 0xFF0000 1 = some t ∧
      t.bytes.size = 24 ∧
      t.pixelAt? 1 1 = some (some 0xFFFF0000) ∧ t.pixelAt? 1 0 = some (some 0) := by
  have hr := draws_line.2 ⟨3, 2, Array.replicate 24 0⟩ (by decide) (by decide) (by decide)
  have hclip : (Raster.mk 3 2 (Array.replicate 24 0)).canvas.clipSegment 0 0 0 2 1 =
      some ((0, 0), (2, 1)) := by decide +kernel
  obtain ⟨t, ht, hstroke⟩ := hr.2 0 0 2 1 0xFF0000 1
  have hon : t.pixelAt? 1 1 = some (some (opaqueColor 0xFF0000)) :=
    hstroke.inside 1 1 (by decide) ⟨_, _, hclip, by decide⟩
  have hoff := hstroke.outside 1 0 (by
    rintro ⟨a, b, hab, hbrushed⟩
    obtain ⟨rfl, rfl⟩ := Prod.mk.inj (Option.some.inj (hclip.symm.trans hab))
    revert hbrushed
    decide)
  exact ⟨t, ht, hstroke.size, hon.trans (by decide), hoff.trans (by decide)⟩

end Raster
end ScreenMarkup
