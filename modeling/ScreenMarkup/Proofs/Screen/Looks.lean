import ScreenMarkup.Proofs.Screen.Change
import ScreenMarkup.Proofs.Screen.Restyle

/-!
# What rules make of a widget

Many operations leave the tree alone and make of each widget something that
depends on that widget only. Two of them from one screen lead to the same
screen exactly when they make the same of every widget.

Of the widget that they style, rules read its style and its height only. So
what they make of a widget without a style is the same on every screen, and a
widget that is styled from scratch and put back to its place differs from
what it was by this style only.
-/

set_option autoImplicit false

namespace ScreenMarkup

namespace Widget

variable {h k : Handle} {f : Widget → Widget}

/-- Changes one widget and leaves all others as they are. -/
def change (h : Handle) (f : Widget → Widget) (k : Handle) (w : Widget) : Widget :=
  if k = h then f w else w

theorem change_self : change h f h = f := by
  funext w
  simp [change]

theorem change_of_ne (hk : k ≠ h) : change h f k = id := by
  funext w
  simp [change, hk]

end Widget

namespace Screen

variable {s t u : Screen} {g g' : Handle → Widget → Widget}

/-- The same tree of the same widgets. -/
structure SameTree (s t : Screen) : Prop where
  shape : t.shape = s.shape
  widget : ∀ h, t.widget? h = s.widget? h

/-- Each widget becomes what `g` makes of it, and the tree stays. -/
structure Redraws (g : Handle → Widget → Widget) (s t : Screen) : Prop where
  shape : t.shape = s.shape
  free : t.free = s.free
  size : t.slots.size = s.slots.size
  widget : ∀ k, t.widget? k = (s.widget? k).map (g k)

theorem Redraws.refl (s : Screen) : Redraws (fun _ w => w) s s := ⟨rfl, rfl, rfl, by simp⟩

theorem Redraws.trans (h₁ : Redraws g s t) (h₂ : Redraws g' t u) :
    Redraws (fun k w => g' k (g k w)) s u where
  shape := h₂.shape.trans h₁.shape
  free := h₂.free.trans h₁.free
  size := h₂.size.trans h₁.size
  widget k := by
    rw [h₂.widget, h₁.widget, Option.map_map]
    rfl

theorem Redraws.congr (hr : Redraws g s t)
    (hg : ∀ k w, s.widget? k = some w → g k w = g' k w) : Redraws g' s t where
  shape := hr.shape
  free := hr.free
  size := hr.size
  widget k := by
    rw [hr.widget]
    cases hw : s.widget? k with
    | none => rfl
    | some w => rw [Option.map_some, Option.map_some, hg k w hw]

theorem redraws_modify (s : Screen) (h : Handle) (f : Widget → Widget) :
    Redraws (Widget.change h f) s (s.modify h f) where
  shape := modify_shape f
  free := modify_free f
  size := modify_size f
  widget k := by
    rw [widget?_modify]
    by_cases hk : k = h
    · rw [if_pos hk, hk, Widget.change_self]
    · rw [if_neg hk, Widget.change_of_ne hk, Option.map_id]
      rfl

theorem Redraws.touches (hr : Redraws g s t) (hg : ∀ k w, Widget.SameKind w (g k w)) :
    Touches (fun _ => True) Widget.SameKind s t where
  shape := hr.shape
  free := hr.free
  size := hr.size
  widget k := by
    rw [hr.widget]
    cases s.widget? k with
    | none => exact .none
    | some w => exact .some (hg k w)
  frame k hk := absurd trivial hk

theorem Redraws.retains (hr : Redraws g s t) (hg : ∀ k w, Widget.SameKind w (g k w))
    (hs : s.WellFormed) : Retains s t :=
  (hr.touches hg).retains (fun _ _ p => p) hs

theorem Redraws.sameTree_iff (hg : Redraws g s t) (hg' : Redraws g' s u) :
    SameTree t u ↔ ∀ k w, s.widget? k = some w → g' k w = g k w := by
  constructor
  · intro htree k w hw
    have hk := htree.widget k
    rw [hg.widget, hg'.widget, hw] at hk
    exact Option.some.inj hk
  · intro hsame
    refine ⟨hg'.shape.trans hg.shape.symm, fun k => ?_⟩
    exact (hg'.congr hsame).widget k |>.trans (hg.widget k).symm

end Screen
end ScreenMarkup

namespace ScreenMarkup

/-- What rules read of a widget. -/
structure Looks where
  style : Style
  height : Int

namespace Widget

def looks (w : Widget) : Looks := ⟨w.style, w.rect.height⟩

/-- Only place, size and style may differ. -/
def SameBody (w v : Widget) : Prop :=
  v = { w with rect := v.rect, aligned := v.aligned, style := v.style }

theorem SameBody.refl (w : Widget) : w.SameBody w := rfl

theorem SameBody.trans {w v x : Widget} (h₁ : w.SameBody v) (h₂ : v.SameBody x) :
    w.SameBody x := by
  rw [SameBody] at h₁ h₂ ⊢
  rw [h₂, h₁]

theorem setSize_looks (w : Widget) (p : Option Size) (width height : Int) :
    (w.setSize p width height).looks = { w.looks with height := height } := by
  rw [setSize, realign]
  split <;> rfl

theorem setSize_body (w : Widget) (p : Option Size) (width height : Int) :
    w.SameBody (w.setSize p width height) := by
  rw [setSize, realign]
  split <;> rfl

end Widget

namespace Screen

variable {s t : Screen} {h k : Handle}

def looks? (s : Screen) (h : Handle) : Option Looks := (s.widget? h).map (·.looks)

theorem style_looks (s : Screen) (h : Handle) :
    s.style h = ((s.looks? h).map (·.style)).getD {} := by
  rw [looks?, Option.map_map]
  rfl

theorem height_looks (s : Screen) (h : Handle) :
    (s.rect h).height = ((s.looks? h).map (·.height)).getD 0 := by
  rw [rect, looks?]
  cases s.widget? h <;> rfl

theorem bodies_styling (h : Handle) : Styling h (Touches (· = h) Widget.SameBody) where
  refl := Touches.refl Widget.SameBody.refl
  trans := Touches.trans fun _ _ _ => Widget.SameBody.trans
  setPos _ _ _ := touches_modify Widget.SameBody.refl fun _ => rfl
  setSize _ _ _ := touches_modify Widget.SameBody.refl fun w => w.setSize_body _ _ _
  applyStyle _ _ := touches_modify Widget.SameBody.refl fun _ => rfl

/-! ## Single changes -/

theorem looks?_modify {f : Widget → Widget} {g : Looks → Looks}
    (hf : ∀ w : Widget, (f w).looks = g w.looks) :
    (s.modify h f).looks? h = (s.looks? h).map g := by
  rw [looks?, looks?, widget?_modify, if_pos rfl, Option.map_map, Option.map_map]
  congr 1
  funext w
  exact hf w

theorem looks?_setPos (x y : Int) : (s.setPos h x y).looks? h = s.looks? h := by
  have hpos : (s.modify h (·.setPos x y)).looks? h = (s.looks? h).map id :=
    looks?_modify fun _ => rfl
  rw [setPos, hpos, Option.map_id, id]

theorem looks?_setSize (width height : Int) :
    (s.setSize h width height).looks? h = (s.looks? h).map ({ · with height := height }) :=
  looks?_modify fun w => w.setSize_looks _ width height

theorem looks?_applyStyle (p : StyleChange) :
    (s.applyStyle h p).looks? h = (s.looks? h).map fun l => { l with style := l.style.apply p } :=
  looks?_modify fun _ => rfl

theorem looks?_clearStyle :
    (s.clearStyle h).looks? h = (s.looks? h).map ({ · with style := {} }) :=
  looks?_modify fun _ => rfl

/-! ## Rules -/

/-- Two widgets, on any two screens, that look alike to rules. -/
def LookAlike (s : Screen) (h : Handle) (t : Screen) (k : Handle) : Prop := s.looks? h = t.looks? k

namespace LookAlike

theorem style_eq (hl : LookAlike s h t k) : s.style h = t.style k := by
  rw [style_looks, style_looks, hl]

theorem height_eq (hl : LookAlike s h t k) : (s.rect h).height = (t.rect k).height := by
  rw [height_looks, height_looks, hl]

theorem applyStyle (hl : LookAlike s h t k) (p : StyleChange) :
    LookAlike (s.applyStyle h p) h (t.applyStyle k p) k := by
  rw [LookAlike, looks?_applyStyle, looks?_applyStyle, hl]

theorem applyStyles (hl : LookAlike s h t k) (ps : List StyleChange) :
    LookAlike (s.applyStyles h ps) h (t.applyStyles k ps) k := by
  induction ps generalizing s t with
  | nil => exact hl
  | cons p ps ih => exact ih (hl.applyStyle p)

theorem setSize (hl : LookAlike s h t k) (x y : Int) {height : Int} :
    LookAlike (s.setSize h x height) h (t.setSize k y height) k := by
  rw [LookAlike, looks?_setSize, looks?_setSize, hl]

theorem setPos (hl : LookAlike s h t k) (x y x' y' : Int) :
    LookAlike (s.setPos h x y) h (t.setPos k x' y') k := by
  rw [LookAlike, looks?_setPos, looks?_setPos, hl]

theorem ite {s' t' : Screen} {c : Prop} [Decidable c] (hc : LookAlike s' h t' k)
    (hl : LookAlike s h t k) :
    LookAlike (if c then s' else s) h (if c then t' else t) k := by
  split
  · exact hc
  · exact hl

theorem alignText (hl : LookAlike s h t k) (valign : String) (height : Int) :
    LookAlike (s.alignText h valign height) h (t.alignText k valign height) k := by
  unfold Screen.alignText
  rw [hl.style_eq]
  by_cases hheight : height ≤ 0
  · rw [if_pos hheight, if_pos hheight]
    exact hl
  · rw [if_neg hheight, if_neg hheight]
    exact (hl.applyStyle _).ite hl

theorem declare (hl : LookAlike s h t k) (d : Declaration) :
    LookAlike (s.declare h d) h (t.declare k d) k := by
  cases d with
  | textColor c => exact hl.applyStyle _
  | background c => exact hl.applyStyles _
  | font f => exact hl.applyStyle _
  | radius r => exact hl.applyStyle _
  | zIndex z => exact hl
  | width w =>
    rw [Screen.declare, Screen.declare, hl.height_eq]
    exact (hl.setSize _ _).ite hl
  | height n => exact (hl.setSize _ _).ite hl
  | left x => exact (hl.setPos _ _ _ _).ite hl
  | top y => exact (hl.setPos _ _ _ _).ite hl
  | padding side p =>
    cases side with
    | none => exact (hl.applyStyles _).ite hl
    | some side => exact (hl.applyStyle _).ite hl
  | opacity o => exact hl.applyStyle _
  | textAlign a v => exact hl.applyStyle _
  | textValign v => exact hl

theorem declareAll (hl : LookAlike s h t k) (ds : List Declaration) :
    LookAlike (ds.foldl (·.declare h ·) s) h (ds.foldl (·.declare k ·) t) k := by
  induction ds generalizing s t with
  | nil => exact hl
  | cons d ds ih => exact ih (hl.declare d)

theorem applyProperties (hl : LookAlike s h t k) (properties : NameTable) (size : Size) :
    LookAlike (s.applyProperties h properties size).2 h
      (t.applyProperties k properties size).2 k := by
  unfold Screen.applyProperties
  extract_lets ds declared aligned declared' aligned'
  have hdeclared : LookAlike declared h declared' k := hl.declareAll ds
  show LookAlike aligned h aligned' k
  unfold aligned aligned'
  cases wantedValign ds with
  | none => exact hdeclared
  | some v =>
    dsimp only
    rw [hdeclared.height_eq]
    exact hdeclared.alignText v _

theorem applyRules (hl : LookAlike s h t k) (sheet : Stylesheet) (tag id classes : String)
    (size : Size) :
    LookAlike (s.applyRules h sheet tag id classes size).2 h
      (t.applyRules k sheet tag id classes size).2 k := by
  have hfold (rules : List Rule) (a b : Option Int × Screen) (hl : LookAlike a.2 h b.2 k) :
      LookAlike
        (rules.foldl (fun acc r =>
          let step := acc.2.applyProperties h r.properties size
          (step.1.or acc.1, step.2)) a).2 h
        (rules.foldl (fun acc r =>
          let step := acc.2.applyProperties k r.properties size
          (step.1.or acc.1, step.2)) b).2 k := by
    induction rules generalizing a b with
    | nil => exact hl
    | cons r rules ih => exact ih _ _ (hl.applyProperties r.properties size)
  exact hfold _ (none, s) (none, t) hl

end LookAlike

end Screen

/-! ## Styling from scratch -/

/-- The style that rules give to a widget of some height that had none: that of a screen of this
height. -/
def Stylesheet.styleOf (sheet : Stylesheet) (tag id classes : String) (size : Size)
    (height : Int) : Style :=
  ((Screen.new ⟨0, height⟩).applyRules Handle.screen sheet tag id classes size).2.style
    Handle.screen

namespace Screen

variable {s : Screen} {h : Handle}

theorem style_applyRules {w : Widget} (hw : s.widget? h = some w) (sheet : Stylesheet)
    (tag id classes : String) (size : Size) :
    ((s.clearStyle h).applyRules h sheet tag id classes size).2.style h =
      sheet.styleOf tag id classes size w.rect.height := by
  have hbare : LookAlike (s.clearStyle h) h (Screen.new ⟨0, w.rect.height⟩) Handle.screen := by
    rw [LookAlike, looks?_clearStyle, looks?, hw]
    rfl
  exact (hbare.applyRules sheet tag id classes size).style_eq

/-- Styles a widget from scratch and puts it back to its place. -/
def redress (s : Screen) (h : Handle) (sheet : Stylesheet) (tag id classes : String)
    (size : Size) : Screen :=
  let ruled := ((s.clearStyle h).applyRules h sheet tag id classes size).2
  (ruled.setPos h (s.rect h).x (s.rect h).y).setSize h (s.rect h).width (s.rect h).height

theorem redress_redraws (s : Screen) (h : Handle) (sheet : Stylesheet) (tag id classes : String)
    (size : Size) :
    Redraws (Widget.change h fun w =>
      { w with aligned := none, style := sheet.styleOf tag id classes size w.rect.height })
      s (s.redress h sheet tag id classes size) := by
  have hclear : Touches (· = h) Widget.SameBody s (s.clearStyle h) :=
    touches_modify Widget.SameBody.refl fun _ => rfl
  have hruled := (bodies_styling h).trans hclear
    ((bodies_styling h).applyRules (s.clearStyle h) sheet tag id classes size)
  have hall : Touches (· = h) Widget.SameBody s (s.redress h sheet tag id classes size) :=
    (bodies_styling h).trans hruled ((bodies_styling h).trans ((bodies_styling h).setPos _ _ _)
      ((bodies_styling h).setSize _ _ _))
  refine ⟨hall.shape, hall.free, hall.size, fun k => ?_⟩
  by_cases hk : k = h
  · subst hk
    rw [Widget.change_self]
    cases hw : s.widget? k with
    | none => exact hall.widget?_eq_none hw
    | some w =>
      obtain ⟨v, hv, hbody⟩ := hruled.exists_widget hw
      have hstyle := style_applyRules hw sheet tag id classes size
      rw [style, hv, Option.map_some, Option.getD_some] at hstyle
      rw [redress, setSize, widget?_modify, if_pos rfl, setPos, widget?_modify, if_pos rfl, hv,
        rect, hw, hbody, hstyle]
      rfl
  · rw [Widget.change_of_ne hk, hall.frame k hk, Option.map_id]
    rfl

end Screen
end ScreenMarkup
