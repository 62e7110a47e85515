import ScreenMarkup.Proofs.Screen.Restyle
import ScreenMarkup.Proofs.Style.Cascade

/-!
# Positions

A widget that is not aligned stays where it is while it gets its size, its
style and its content. Rules move it in one axis at a time, and the last
declaration of an axis that is not negative decides it. Inline attributes move
it in the axes that are written.
-/

set_option autoImplicit false

namespace ScreenMarkup

inductive Axis where
  | across
  | down
deriving DecidableEq

namespace Axis

def other : Axis → Axis
  | across => down
  | down => across

/-- The coordinate of a point. -/
def part : Axis → Offset → Int
  | across, p => p.x
  | down, p => p.y

def extent : Axis → Size → Int
  | across, size => size.width
  | down, size => size.height

/-- The property that declares the position. -/
def property : Axis → String
  | across => "left"
  | down => "top"

end Axis

/-- The point with the given coordinates, where there are any. -/
def Offset.moved (p : Offset) (u : Axis → Option Int) : Offset :=
  ⟨(u .across).getD p.x, (u .down).getD p.y⟩

namespace Offset

variable (p : Offset) (u v : Axis → Option Int)

theorem moved_moved : (p.moved u).moved v = p.moved fun a => (v a).or (u a) := by
  simp only [moved, Option.getD_or]

end Offset

/-! ## What declares a position -/

/-- The position that is declared in an axis. A negative one is none. -/
def Declaration.position? (a : Axis) : Declaration → Option Int
  | .left x => if a = .across ∧ 0 ≤ x then some x else none
  | .top y => if a = .down ∧ 0 ≤ y then some y else none
  | _ => none

/-- The position that properties give in an axis. -/
def NameTable.position? (t : NameTable) (size : Size) (a : Axis) : Option Int :=
  (t.get? a.property).bind fun v =>
    let n := coordinate v (a.extent size)
    if 0 ≤ n then some n else none

/-- The position that the last of the selecting rules gives that gives any. -/
def Stylesheet.position? (sheet : Stylesheet) (tag id classes : String) (size : Size) (a : Axis) :
    Option Int :=
  ((sheet.matching tag id classes).filterMap fun r => r.properties.position? size a).getLast?

theorem Declaration.parse?_position? (a : Axis) (name value : String) (size : Size) :
    (parse? name value size).bind (position? a) =
      if name = a.property then
        let n := coordinate value (a.extent size)
        if 0 ≤ n then some n else none
      else none := by
  obtain ⟨al, v, halign⟩ := textAlignOf_eq value
  by_cases hname : name = a.property
  · rw [if_pos hname, hname]
    cases a
    · show (if Axis.across = .across ∧ 0 ≤ _ then _ else _) = _
      simp only [true_and]
      rfl
    · show (if Axis.down = .down ∧ 0 ≤ _ then _ else _) = _
      simp only [true_and]
      rfl
  · rw [if_neg hname]
    unfold parse?
    rw [halign]
    cases a <;> split <;> first | contradiction | rfl

/-! ## Widgets that stay -/

namespace Widget

/-- If the widget is not aligned, it stays where it is. -/
def Rests (w v : Widget) : Prop :=
  w.aligned = none → v.aligned = none ∧ v.rect.origin = w.rect.origin

theorem Rests.refl (w : Widget) : w.Rests w := fun hn => ⟨hn, rfl⟩

theorem Rests.of_eq {w v : Widget} (ha : v.aligned = w.aligned) (hr : v.rect = w.rect) :
    w.Rests v := fun hn => ⟨ha.trans hn, congrArg Rect.origin hr⟩

theorem setSize_rests (w : Widget) (parent : Option Size) (width height : Int) :
    w.Rests (w.setSize parent width height) := by
  intro hn
  rw [setSize, realign]
  simp [hn, Rect.origin]

theorem configure_rests (w : Widget) (setting : Setting) : w.Rests (w.configure setting) := by
  cases setting <;> exact Rests.of_eq rfl rfl

end Widget

namespace Screen

variable {s t : Screen} {h k : Handle} {p : Offset}

/-- The widget is at a point, and no alignment keeps it there. -/
def Lies (s : Screen) (h : Handle) (p : Offset) : Prop :=
  ∃ w, s.widget? h = some w ∧ w.aligned = none ∧ w.rect.origin = p

namespace Lies

theorem isLive (hl : s.Lies h p) : s.isLive h = true := by
  obtain ⟨w, hw, -, -⟩ := hl
  exact isLive_iff.mpr ⟨w, hw⟩

theorem origin (hl : s.Lies h p) : (s.rect h).origin = p := by
  obtain ⟨w, hw, -, hp⟩ := hl
  rw [rect, hw]
  exact hp

theorem congr (hl : s.Lies h p) (hw : t.widget? h = s.widget? h) : t.Lies h p := by
  rw [Lies, hw]
  exact hl

theorem rest {H : Handle → Prop} (hl : s.Lies h p) (ht : Touches H Widget.Rests s t) :
    t.Lies h p := by
  obtain ⟨w, hw, hn, hp⟩ := hl
  obtain ⟨v, hv, hrest⟩ := ht.exists_widget hw
  obtain ⟨hnone, horigin⟩ := hrest hn
  exact ⟨v, hv, hnone, horigin.trans hp⟩

/-! ### Single changes -/

theorem modify (hl : s.Lies h p) (k : Handle) {f : Widget → Widget} (hf : ∀ w : Widget, w.Rests (f w)) :
    (s.modify k f).Lies h p :=
  hl.rest (touches_modify Widget.Rests.refl hf)

theorem setSize (hl : s.Lies h p) (k : Handle) (width height : Int) :
    (s.setSize k width height).Lies h p :=
  hl.modify k fun w => w.setSize_rests _ width height

theorem resize (hl : s.Lies h p) (k : Handle) (width height : Int) :
    (s.resize k width height).Lies h p :=
  hl.setSize k _ _

theorem applyStyle (hl : s.Lies h p) (k : Handle) (c : StyleChange) :
    (s.applyStyle k c).Lies h p :=
  hl.modify k fun _ => Widget.Rests.of_eq rfl rfl

theorem configure (hl : s.Lies h p) (k : Handle) (setting : Setting) :
    (s.configure k setting).Lies h p :=
  hl.modify k fun w => w.configure_rests setting

theorem setText (hl : s.Lies h p) (k : Handle) (text : String) : (s.setText k text).Lies h p :=
  hl.modify k fun _ => Widget.Rests.of_eq rfl rfl

theorem setHidden (hl : s.Lies h p) (k : Handle) (b : Bool) : (s.setHidden k b).Lies h p :=
  hl.modify k fun _ => Widget.Rests.of_eq rfl rfl

theorem setActiveTile (hl : s.Lies h p) (view tile : Handle) :
    (s.setActiveTile view tile).Lies h p :=
  hl.modify view fun _ => Widget.Rests.of_eq rfl rfl

/-- To align another widget is no matter. -/
theorem align (hl : s.Lies h p) (hk : h ≠ k) (a : Align) (shift : Offset) :
    (s.align k a shift).Lies h p :=
  hl.congr ((align_restyles s k a shift).frame h hk)

theorem ite {c : Prop} [Decidable c] (hl : s.Lies h p) (ht : t.Lies h p) :
    (if c then t else s).Lies h p := by
  split
  · exact ht
  · exact hl

theorem foldl {α : Type} {f : Screen → α → Screen} (hl : s.Lies h p)
    (hf : ∀ s a, s.Lies h p → (f s a).Lies h p) (as : List α) : (as.foldl f s).Lies h p := by
  induction as generalizing s with
  | nil => exact hl
  | cons a as ih => exact ih (hf s a hl)

theorem applyStyles (hl : s.Lies h p) (k : Handle) (cs : List StyleChange) :
    (s.applyStyles k cs).Lies h p :=
  hl.foldl (fun _ c hs => hs.applyStyle k c) cs

theorem alignText (hl : s.Lies h p) (k : Handle) (valign : String) (height : Int) :
    (s.alignText k valign height).Lies h p := by
  unfold Screen.alignText
  split
  · exact hl
  · exact hl.ite (hl.applyStyle k _)

theorem setPos (hl : s.Lies h p) (x y : Int) : (s.setPos h x y).Lies h ⟨x, y⟩ := by
  obtain ⟨w, hw, -, -⟩ := hl
  refine ⟨w.setPos x y, ?_, rfl, rfl⟩
  rw [Screen.setPos, widget?_modify, if_pos rfl, hw]
  rfl

theorem x_eq (hl : s.Lies h p) : (s.rect h).x = p.x := congrArg Offset.x hl.origin

theorem y_eq (hl : s.Lies h p) : (s.rect h).y = p.y := congrArg Offset.y hl.origin

/-! ### Rules -/

theorem declare (hl : s.Lies h p) (d : Declaration) :
    (s.declare h d).Lies h (p.moved (d.position? ·)) := by
  have hstay {t : Screen} (ht : t.Lies h p) : t.Lies h (p.moved fun _ => none) := ht
  cases d with
  | textColor c => exact hstay (hl.applyStyle h _)
  | background c => exact hstay (hl.applyStyles h _)
  | font f => exact hstay (hl.applyStyle h _)
  | radius r => exact hstay (hl.applyStyle h _)
  | zIndex z => exact hstay hl
  | width w => exact hstay (hl.ite (hl.setSize h _ _))
  | height n => exact hstay (hl.ite (hl.setSize h _ _))
  | left x =>
    unfold Screen.declare Offset.moved Declaration.position?
    by_cases hx : 0 ≤ x
    · simpa [hx, hl.y_eq] using hl.setPos x (s.rect h).y
    · simpa [hx] using hl
  | top y =>
    unfold Screen.declare Offset.moved Declaration.position?
    by_cases hy : 0 ≤ y
    · simpa [hy, hl.x_eq] using hl.setPos (s.rect h).x y
    · simpa [hy] using hl
  | padding side n =>
    cases side with
    | none => exact hstay (hl.ite (hl.applyStyles h _))
    | some side => exact hstay (hl.ite (hl.applyStyle h _))
  | opacity o => exact hstay (hl.applyStyle h _)
  | textAlign a v => exact hstay (hl.applyStyle h _)
  | textValign v => exact hstay hl

theorem declareAll (hl : s.Lies h p) (ds : List Declaration) :
    (ds.foldl (·.declare h ·) s).Lies h
      (p.moved fun a => (ds.filterMap (Declaration.position? a)).getLast?) := by
  induction ds generalizing s p with
  | nil => exact hl
  | cons d ds ih =>
    have hrest := ih (hl.declare d)
    rw [Offset.moved_moved] at hrest
    simpa only [List.foldl_cons, getLast?_filterMap_cons] using hrest

theorem applyProperties (hl : s.Lies h p) (t : NameTable) (size : Size) :
    (s.applyProperties h t size).2.Lies h (p.moved (t.position? size)) := by
  unfold Screen.applyProperties
  extract_lets ds declared aligned
  have hdeclared : declared.Lies h (p.moved (t.position? size)) := by
    have hall := hl.declareAll ds
    have hlast (a : Axis) : (ds.filterMap (Declaration.position? a)).getLast? =
        t.position? size a :=
      filterMap_parse? t fun n v => Declaration.parse?_position? a n v size
    simpa only [hlast] using hall
  show aligned.Lies h _
  unfold aligned
  cases wantedValign ds with
  | none => exact hdeclared
  | some v => exact hdeclared.alignText h v _

theorem applyRules (hl : s.Lies h p) (sheet : Stylesheet) (tag id classes : String)
    (size : Size) :
    (s.applyRules h sheet tag id classes size).2.Lies h
      (p.moved (sheet.position? tag id classes size)) := by
  have hfold (rules : List Rule) (z : Option Int) {s : Screen} {p : Offset} (hl : s.Lies h p) :
      (rules.foldl (fun acc r =>
        let step := acc.2.applyProperties h r.properties size
        (step.1.or acc.1, step.2)) (z, s)).2.Lies h
        (p.moved fun a => (rules.filterMap fun r => r.properties.position? size a).getLast?) := by
    induction rules generalizing z s p with
    | nil => exact hl
    | cons r rules ih =>
      have hrest := ih ((s.applyProperties h r.properties size).1.or z)
        (hl.applyProperties r.properties size)
      rw [Offset.moved_moved] at hrest
      simpa only [List.foldl_cons, getLast?_filterMap_cons] using hrest
  exact hfold _ none hl

/-! ### Inline attributes -/

/-- The coordinates that are written win, each in its axis. -/
theorem applyInline (hl : s.Lies h p) (text : Handle) (i : Inline) :
    (s.applyInline h text i).Lies h ⟨i.x.getD p.x, i.y.getD p.y⟩ := by
  unfold Screen.applyInline
  extract_lets background radius color font position
  have hbackground : background.Lies h p := by
    unfold background
    cases i.bgcolor with
    | none => exact hl
    | some c => exact hl.applyStyles h _
  have hradius : radius.Lies h p := by
    unfold radius
    cases i.radius with
    | none => exact hbackground
    | some r => exact hbackground.applyStyle h _
  have hcolor : color.Lies h p := by
    unfold color
    cases i.color with
    | none => exact hradius
    | some c => exact hradius.applyStyle text _
  have hfont : font.Lies h p := by
    unfold font
    cases i.font with
    | none => exact hcolor
    | some f => exact hcolor.applyStyle text _
  have hposition : position.Lies h ⟨i.x.getD p.x, i.y.getD p.y⟩ := by
    unfold position
    split
    · rw [hfont.x_eq, hfont.y_eq]
      exact hfont.setPos _ _
    · next hnone =>
      simp only [Bool.or_eq_true, not_or, Option.isSome_iff_ne_none, ne_eq, not_not] at hnone
      rw [hnone.1, hnone.2]
      exact hfont
  exact hposition.ite (hposition.setSize h _ _)

end Lies
end Screen
end ScreenMarkup
