import ScreenMarkup.Proofs.Session.WriteOrder
import ScreenMarkup.Proofs.State.Writes
import ScreenMarkup.Proofs.Style.Cascade

/-!
# Styles in runs of writes

A write that touches the classes of a control styles its widget from scratch,
as the rules want it for the new classes. So after a run of writes the last
such write decides. A text inside the widget is no part of this: it gets the
colors that the rules give it, one after the other, and keeps the rest.
-/

set_option autoImplicit false

namespace ScreenMarkup

namespace Control

/-- The style that the rules give to the widget of a control with some classes. -/
def look (c : Control) (s : Session) (classes : String) : Style :=
  s.sheet.styleOf c.kind.tag c.id classes s.config.screen (s.screen.rect c.target).height

end Control

namespace Stylesheet

/-- The text color of a widget that is styled from scratch is the one that the rules resolve to. -/
theorem styleOf_textColor (sheet : Stylesheet) (tag id classes : String) (size : Size)
    (height : Int) : (sheet.styleOf tag id classes size height).textColor =
      (sheet.resolve? tag id classes "color").map Color.ofStylesheet :=
  Screen.applyRules_textColor (w := { Widget.new .screen with rect := ⟨0, 0, 0, height⟩ }) rfl rfl
    sheet tag id classes size

end Stylesheet

namespace Refresh

variable {r : Refresh} {c : Control} {k : Handle} {height : Int} {style : Style}

theorem backgroundFor_unbound (hb : c.bgcolorBind = none) : r.backgroundFor c k = none := by
  simp [backgroundFor, hb]

/-- The text color of the widget that the classes style is theirs, also where the refresh sets it
twice. -/
theorem styled_textColor (hc : c.colorBind = none) :
    (r.styled c c.target height style).textColor =
      (r.based c c.target height style).textColor := by
  rw [styled_eq]
  show (r.colorFor c c.target).or _ = _
  cases hruled : r.ruledColor? c with
  | none => simp [colorFor, hc, hruled]
  | some color =>
    have hbased : (r.based c c.target height style).textColor = some color := by
      unfold ruledColor? at hruled
      split at hruled
      · obtain ⟨classes, hfilled, hcolor⟩ := Option.bind_eq_some_iff.mp hruled
        rw [based, classesFor, if_pos rfl, hfilled, Option.elim_some, Stylesheet.styleOf_textColor,
          hcolor]
      · cases hruled
    unfold colorFor
    split <;> simp [hc, hruled, hbased]

/-- Without bound colors the classes alone decide the style of the widget. -/
theorem styled_target (hc : c.colorBind = none) (hb : c.bgcolorBind = none) :
    r.styled c c.target height style = r.based c c.target height style := by
  have hcolor : (r.styled c c.target height style).textColor =
      (r.based c c.target height style).textColor := styled_textColor hc
  rw [styled_eq, backgroundFor_unbound hb] at hcolor ⊢
  exact congrArg (fun color => { r.based c c.target height style with textColor := color }) hcolor

end Refresh

namespace Session

variable {s t : Session} {c : Control} {k : Handle} {name value template : String}
  {writes : List (String × String)}

/-! ## One write -/

theorem assign_kept (s : Session) (name value : String) :
    (s.assign name value).controls = s.controls ∧ (s.assign name value).sheet = s.sheet ∧
      (s.assign name value).config = s.config := by
  obtain ⟨screen, signals, he⟩ := s.assign_eq name value
  rw [he]
  exact ⟨rfl, rfl, rfl⟩

/-- What a write makes of the place and the style of a control's widget. -/
theorem assign_widget (hs : s.WellFormed) (hc : c ∈ s.controls) (ho : c.Owns k)
    (name value : String) :
    (s.assign name value).screen.rect k = s.screen.rect k ∧
    (s.assign name value).screen.style k =
      if (s.store.setText name value true).1 = true then
        (s.refreshAfter name value ((s.store.record name value).text name)).styled c k
          (s.screen.rect k).height (s.screen.style k)
      else s.screen.style k := by
  obtain ⟨w, hw⟩ := Screen.isLive_iff.mp ((hs.fits c hc).live ho)
  have hwidget := (assigned_redraws hs name value).widget k
  rw [hw, Option.map_some, Controls.each_of_owns hs.apart hc ho] at hwidget
  simp only [Screen.rect, Screen.style, hwidget, hw, Option.map_some, Option.getD_some]
  unfold assigned
  split <;> exact ⟨rfl, rfl⟩

theorem look_assign (hs : s.WellFormed) (hc : c ∈ s.controls) (name value classes : String) :
    c.look (s.assign name value) classes = c.look s classes := by
  obtain ⟨-, hsheet, hconfig⟩ := s.assign_kept name value
  rw [Control.look, hsheet, hconfig, (assign_widget hs hc c.owns_target name value).1]
  rfl

/-- The classes that a write gives to a control. -/
theorem filled?_refreshAfter (hT : c.classTemplate = some template)
    (hchanged : (s.store.setText name value true).1 = true) (text : String) :
    (s.refreshAfter name value text).filled? c.classTemplate =
      if s.store.touches template name value = true then
        some (Template.render template (s.store.record name value))
      else none := by
  rw [hT, Store.touches, hchanged, Bool.true_and]
  cases hm : Template.mentions template name with
  | true => simp [Refresh.filled?, Refresh.affected?, refreshAfter, hm]
  | false => simp [Refresh.filled?, Refresh.affected?, refreshAfter, hm]

/-- A property that no binding sets, after a write. -/
theorem assign_property {α : Type} {f : Style → α} (hs : s.WellFormed)
    (hc : c ∈ s.controls) (hT : c.classTemplate = some template)
    (hf : ∀ (r : Refresh) (height : Int) (style : Style),
      f (r.styled c c.target height style) = f (r.based c c.target height style))
    (name value : String) :
    f ((s.assign name value).screen.style c.target) =
      if s.store.touches template name value = true then
        f (c.look s (Template.render template (s.store.record name value)))
      else f (s.screen.style c.target) := by
  rw [(assign_widget hs hc c.owns_target name value).2]
  cases hchanged : (s.store.setText name value true).1 with
  | false =>
    rw [if_neg Bool.false_ne_true, if_neg (by simp [Store.touches, hchanged])]
  | true =>
    rw [if_pos rfl, hf, Refresh.based, Refresh.classesFor, if_pos rfl,
      filled?_refreshAfter hT hchanged]
    split <;> rfl

/-- The text inside a widget, after a write. -/
theorem assign_inner (hs : s.WellFormed) (hc : c ∈ s.controls)
    (hT : c.classTemplate = some template) (ho : c.outer.isSome = true)
    (hk : c.obj ≠ c.target) (hcolor : c.colorBind = none) (name value : String) :
    (s.assign name value).screen.style c.obj =
      (s.screen.style c.obj).recolor
        (if s.store.touches template name value = true then
          (c.look s (Template.render template (s.store.record name value))).textColor
        else none) none := by
  rw [(assign_widget hs hc c.owns_obj name value).2]
  cases hchanged : (s.store.setText name value true).1 with
  | false =>
    rw [if_neg Bool.false_ne_true, if_neg (by simp [Store.touches, hchanged])]
    rfl
  | true =>
    have hruled (r : Refresh) (height : Int) (style : Style) :
        r.styled c c.obj height style = style.recolor (r.ruledColor? c) none := by
      simp [Refresh.styled, Refresh.classesFor, Refresh.colorFor, Refresh.backgroundFor, hk, hcolor]
    rw [if_pos rfl, hruled, Refresh.ruledColor?, if_pos ho, filled?_refreshAfter hT hchanged]
    split
    · rw [Control.look, Stylesheet.styleOf_textColor]
      rfl
    · rfl

/-- A write changes nothing but the colors of the text inside a widget. -/
theorem assign_inner_uncolored (hs : s.WellFormed) (hc : c ∈ s.controls) (hk : c.obj ≠ c.target)
    (name value : String) :
    ((s.assign name value).screen.style c.obj).uncolored =
      (s.screen.style c.obj).uncolored := by
  rw [(assign_widget hs hc c.owns_obj name value).2]
  split
  · rw [Refresh.styled_eq, Style.uncolored_recolor, Refresh.based, Refresh.classesFor, if_neg hk]
    rfl
  · rfl

/-! ## Runs -/

/-- Writes of variables in order. -/
def assignAll (s : Session) (writes : List (String × String)) : Session :=
  writes.foldl (fun s w => s.assign w.1 w.2) s

/-- What every write keeps, a run keeps. -/
theorem assignAll_keeps {P : Session → Prop} (hs : s.WellFormed) (hP : P s)
    (hstep : ∀ u name value, u.WellFormed → u.controls = s.controls → P u →
      P (u.assign name value)) (writes : List (String × String)) : P (s.assignAll writes) := by
  have hrun : ∀ u : Session, u.WellFormed → u.controls = s.controls → P u →
      P (u.assignAll writes) := by
    induction writes with
    | nil => exact fun u _ _ hu => hu
    | cons w writes ih =>
      intro u hwf hcontrols hu
      exact ih _ (assign_keeps hwf w.1 w.2).wellFormed ((u.assign_kept w.1 w.2).1.trans hcontrols)
        (hstep u w.1 w.2 hwf hcontrols hu)
  exact hrun s hs rfl hP

theorem assignAll_store (s : Session) (writes : List (String × String)) :
    (s.assignAll writes).store = s.store.recordAll writes := by
  induction writes generalizing s with
  | nil => rfl
  | cons w writes ih =>
    refine (ih (s.assign w.1 w.2)).trans ?_
    rw [assign_store]
    rfl

/-- A run leaves every widget of a control in its place. -/
theorem assignAll_rect (hs : s.WellFormed) (hc : c ∈ s.controls) (ho : c.Owns k)
    (writes : List (String × String)) :
    (s.assignAll writes).screen.rect k = s.screen.rect k :=
  assignAll_keeps (P := fun u => u.screen.rect k = s.screen.rect k) hs rfl
    (fun _ name value hu he hP => (assign_widget hu (he ▸ hc) ho name value).1.trans hP) writes

theorem getD_getLast?_cons {α β : Type} (f : α → β) (a : α) (l : List α) (b : β) :
    ((a :: l).getLast?.map f).getD b = (l.getLast?.map f).getD (f a) := by
  rw [List.getLast?_cons]
  cases l.getLast? <;> rfl

/-- A property that no binding sets is as the classes want it that a run wrote last. -/
theorem assignAll_property {α : Type} {f : Style → α} (hs : s.WellFormed)
    (hc : c ∈ s.controls) (hT : c.classTemplate = some template)
    (hf : ∀ (r : Refresh) (height : Int) (style : Style),
      f (r.styled c c.target height style) = f (r.based c c.target height style))
    (writes : List (String × String)) :
    f ((s.assignAll writes).screen.style c.target) =
      ((s.store.fills template writes).getLast?.map (f <| c.look s ·)).getD
        (f (s.screen.style c.target)) := by
  induction writes generalizing s with
  | nil => rfl
  | cons w writes ih =>
    obtain ⟨name, value⟩ := w
    have hc' : c ∈ (s.assign name value).controls := by
      rw [(s.assign_kept name value).1]
      exact hc
    refine (ih (assign_keeps hs name value).wellFormed hc').trans ?_
    simp only [look_assign hs hc, assign_store, assign_property hs hc hT hf, Store.fills]
    cases ht : s.store.touches template name value with
    | true => simp only [if_true, getD_getLast?_cons]
    | false => rfl

theorem assignAll_inner_uncolored (hs : s.WellFormed) (hc : c ∈ s.controls)
    (hk : c.obj ≠ c.target) (writes : List (String × String)) :
    ((s.assignAll writes).screen.style c.obj).uncolored =
      (s.screen.style c.obj).uncolored :=
  assignAll_keeps
    (P := fun u => (u.screen.style c.obj).uncolored = (s.screen.style c.obj).uncolored) hs rfl
    (fun _ name value hu he hP => (assign_inner_uncolored hu (he ▸ hc) hk name value).trans hP)
    writes

/-- The text inside a widget has the last color that a run's classes give it. -/
theorem assignAll_inner (hs : s.WellFormed) (hc : c ∈ s.controls)
    (hT : c.classTemplate = some template) (ho : c.outer.isSome = true)
    (hk : c.obj ≠ c.target) (hcolor : c.colorBind = none) (writes : List (String × String)) :
    (s.assignAll writes).screen.style c.obj =
      (s.screen.style c.obj).recolor
        ((s.store.fills template writes).filterMap fun l => (c.look s l).textColor).getLast?
        none := by
  induction writes generalizing s with
  | nil => rfl
  | cons w writes ih =>
    obtain ⟨name, value⟩ := w
    have hc' : c ∈ (s.assign name value).controls := by
      rw [(s.assign_kept name value).1]
      exact hc
    refine (ih (assign_keeps hs name value).wellFormed hc').trans ?_
    simp only [look_assign hs hc, assign_store, assign_inner hs hc hT ho hk hcolor, Store.fills]
    cases ht : s.store.touches template name value with
    | true => simp [Style.recolor, Option.or_assoc]
    | false => simp

end Session
end ScreenMarkup
