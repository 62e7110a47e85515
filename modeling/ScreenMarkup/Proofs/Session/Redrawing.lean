import ScreenMarkup.Proofs.Screen.Looks
import ScreenMarkup.Proofs.Session.Refreshing

/-!
# What a refresh makes of each widget

The refresh for a variable redraws the screen. It makes of each widget what
its control asks for: new content where a template or a binding depends on the
variable, a style from scratch where the classes do, and colors on top of
that.
-/

set_option autoImplicit false

namespace ScreenMarkup

namespace Widget

/-- What a value of a range becomes when another one is offered; the same one is no change. -/
def offer (low high value v : Int) : Int := if value = v then value else clampValue low high v

end Widget

/-- The style with other colors of the text and the background, where there are some. -/
def Style.recolor (style : Style) (color background : Option Nat) : Style :=
  { style with
    textColor := color.or style.textColor
    bgColor := background.or style.bgColor
    bgOpacity := (background.map fun _ => Style.cover).or style.bgOpacity }

/-! ## All controls -/

namespace Control

instance (c : Control) (h : Handle) : Decidable (c.Owns h) :=
  inferInstanceAs (Decidable (_ ∨ _))

end Control

namespace Controls

variable {cs : Controls} {c : Control} {k : Handle} {s t : Screen}
  {f : Screen → Control → Screen} {G G' : Control → Handle → Widget → Widget}

/-- Makes of each widget what its control makes of it. -/
def each (G : Control → Handle → Widget → Widget) (cs : Controls) (k : Handle) (w : Widget) :
    Widget :=
  match List.find? (fun c => c.Owns k) cs with
  | some c => G c k w
  | none => w

theorem each_of_owns (ha : cs.Pairwise Control.Apart) (hc : c ∈ cs) (ho : c.Owns k) (w : Widget) :
    cs.each G k w = G c k w := by
  have hfind : List.find? (fun c => c.Owns k) cs = some c := by
    induction cs with
    | nil => cases hc
    | cons d cs ih =>
      obtain ⟨hapart, ha⟩ := List.pairwise_cons.mp ha
      rcases List.mem_cons.mp hc with rfl | hc
      · simp [ho]
      · have hd : ¬ d.Owns k := fun hd => hapart c hc k hd ho
        simp [hd, ih ha hc]
  rw [each, hfind]

theorem each_of_not_owns (ho : ∀ c ∈ cs, ¬ c.Owns k) (w : Widget) : cs.each G k w = w := by
  have hfind : List.find? (fun c => c.Owns k) cs = none := by simpa using ho
  rw [each, hfind]

/-- What changes each control on its own widgets changes all controls at once. -/
theorem foldl_redraws (hkind : ∀ c k w, Widget.SameKind w (G c k w))
    (hframe : ∀ c k w, ¬ c.Owns k → G c k w = w)
    (hstep : ∀ s c, s.WellFormed → c.Fits s → Screen.Redraws (G c) s (f s c))
    (ha : cs.Pairwise Control.Apart) (hs : s.WellFormed) (hf : ∀ c ∈ cs, c.Fits s) :
    Screen.Redraws (cs.each G) s (cs.foldl f s) := by
  induction cs generalizing s with
  | nil => exact Screen.Redraws.refl s
  | cons c cs ih =>
    obtain ⟨hapart, hrest⟩ := List.pairwise_cons.mp ha
    have hc := hstep s c hs (hf c (by simp))
    have hret := hc.retains (hkind c) hs
    have hcs := ih hrest hret.wellFormed fun d hd => (hf d (by simp [hd])).retain hret
    refine (hc.trans hcs).congr fun k w _ => ?_
    by_cases ho : c.Owns k
    · rw [each_of_owns ha (by simp) ho, each_of_not_owns fun d hd => hapart d hd k ho]
    · rw [hframe c k w ho, each, each, List.find?_cons_of_neg (by simpa using ho)]

/-- What two ways to change a control make of its widgets, they make of all widgets. -/
theorem each_rel {P : Widget → Widget → Prop} (hP : ∀ w, P w w) {w : Widget}
    (hc : ∀ c ∈ cs, c.Owns k → P (G c k w) (G' c k w)) : P (cs.each G k w) (cs.each G' k w) := by
  unfold each
  cases hfind : List.find? (fun c => c.Owns k) cs with
  | none => exact hP w
  | some c => exact hc c (List.mem_of_find?_eq_some hfind) (by simpa using List.find?_some hfind)

/-- Two ways to change the controls make the same of every widget exactly when they do so of the
widgets of every control. -/
theorem each_eq_iff (ha : cs.Pairwise Control.Apart) {P : Handle → Widget → Prop} :
    (∀ k w, P k w → cs.each G' k w = cs.each G k w) ↔
      ∀ c ∈ cs, ∀ k, c.Owns k → ∀ w, P k w → G' c k w = G c k w := by
  constructor
  · intro hall c hc k ho w hw
    have hk := hall k w hw
    rwa [each_of_owns ha hc ho, each_of_owns ha hc ho] at hk
  · intro hall k w hw
    exact each_rel (P := fun w v => w = v) (fun _ => rfl) fun c hc ho => hall c hc k ho w hw

theorem each_each (G' : Control → Handle → Widget → Widget) (w : Widget) :
    cs.each G' k (cs.each G k w) = cs.each (fun c k w => G' c k (G c k w)) k w := by
  unfold each
  cases List.find? (fun c => c.Owns k) cs <;> rfl

end Controls

/-! ## One control -/

namespace Refresh

variable {r : Refresh} {s : Screen} {c : Control} {k : Handle}

/-- A template filled in, when it depends on the variable. -/
def filled? (r : Refresh) (template : Option String) : Option String :=
  (r.affected? template).map (Template.render · r.store)

/-- The spans of a rich text. -/
def newSpans? (r : Refresh) (c : Control) : Option (List Span) :=
  c.theme.bind fun theme => (r.filled? c.template).map (Markdown.render · theme)

/-- The text that the control's template shows. -/
def shownText? (r : Refresh) (c : Control) : Option String :=
  (r.filled? c.template).map fun text =>
    match c.theme with
    | some theme => String.join ((Markdown.render text theme).map (·.text))
    | none => text

/-- The color that the classes give to the text inside another widget. -/
def ruledColor? (r : Refresh) (c : Control) : Option Nat :=
  if c.outer.isSome then
    (r.filled? c.classTemplate).bind fun classes =>
      (r.sheet.resolve? c.kind.tag c.id classes "color").map Color.ofStylesheet
  else none

def spansFor (r : Refresh) (c : Control) (k : Handle) : Option (List Span) :=
  if k = c.obj then r.newSpans? c else none

def textFor (r : Refresh) (c : Control) (k : Handle) : Option String :=
  if k = c.obj then
    if c.bind = some r.name ∧ c.kind = .input then some r.value else r.shownText? c
  else none

def checkedFor (r : Refresh) (c : Control) (k : Handle) : Option Bool :=
  if k = c.obj ∧ c.bind = some r.name ∧ c.kind = .switch then some (readBool r.value) else none

def valueFor (r : Refresh) (c : Control) (k : Handle) : Option Int :=
  if k = c.obj ∧ c.bind = some r.name ∧ c.kind = .slider then
    some (Numeric.leadingInt r.value.toList)
  else none

def hiddenFor (r : Refresh) (c : Control) (k : Handle) : Option Bool :=
  if k = c.target ∧ c.visibleBind = some r.name then some (!readBool r.value) else none

/-- The classes that style a widget from scratch. -/
def classesFor (r : Refresh) (c : Control) (k : Handle) : Option String :=
  if k = c.target then r.filled? c.classTemplate else none

def colorFor (r : Refresh) (c : Control) (k : Handle) : Option Nat :=
  if k = c.obj then
    if c.colorBind = some r.name then some (Color.ofAttribute r.value) else r.ruledColor? c
  else none

def backgroundFor (r : Refresh) (c : Control) (k : Handle) : Option Nat :=
  if k = c.target ∧ c.bgcolorBind = some r.name then some (Color.ofAttribute r.value) else none

/-- The style that the classes leave, in the colors that the classes and the bindings give. -/
def styled (r : Refresh) (c : Control) (k : Handle) (height : Int) (style : Style) : Style :=
  ((r.classesFor c k).elim style fun classes =>
    r.sheet.styleOf c.kind.tag c.id classes r.size height).recolor
      (r.colorFor c k) (r.backgroundFor c k)

/-- What the refresh makes of one widget. -/
def redraw (r : Refresh) (c : Control) (k : Handle) (w : Widget) : Widget :=
  { w with
    text := (r.textFor c k).getD w.text
    spans := (r.spansFor c k).getD w.spans
    checked := (r.checkedFor c k).getD w.checked
    value := (r.valueFor c k).elim w.value (Widget.offer w.low w.high w.value)
    hidden := (r.hiddenFor c k).getD w.hidden
    aligned := (r.classesFor c k).elim w.aligned fun _ => none
    style := r.styled c k w.rect.height w.style }

theorem text_redraws (hs : s.WellFormed) (hf : c.Fits s) :
    Screen.Redraws (Widget.change c.obj fun w =>
      { w with
        text := (r.shownText? c).getD w.text
        spans := (r.newSpans? c).getD w.spans }) s (r.text c s) := by
  cases ha : r.affected? c.template with
  | none =>
    rw [text_of_none ha]
    refine (Screen.Redraws.refl s).congr fun k w _ => ?_
    cases hth : c.theme <;> simp [Widget.change, shownText?, newSpans?, filled?, ha, hth]
  | some t =>
    rw [text_eq hs hf ha]
    refine (Screen.redraws_modify s c.obj _).congr fun k w _ => ?_
    cases hth : c.theme <;>
      simp [Widget.change, shownText?, newSpans?, filled?, ha, hth, Widget.setSpans]

theorem classes_eq (r : Refresh) (c : Control) (s : Screen) :
    r.classes c s = match r.filled? c.classTemplate with
      | none => s
      | some classes =>
        let dressed := s.redress c.target r.sheet c.kind.tag c.id classes r.size
        match r.ruledColor? c with
        | some color => dressed.applyStyle c.obj (.textColor color)
        | none => dressed := by
  unfold classes
  cases ha : r.affected? c.classTemplate with
  | none => simp [filled?, ha]
  | some t =>
    cases ho : c.outer with
    | none => simp [filled?, ruledColor?, ha, ho, Screen.redress]
    | some h =>
      cases hc : r.sheet.resolve? c.kind.tag c.id (Template.render t r.store) "color" <;>
        simp [filled?, ruledColor?, ha, ho, hc, Screen.redress]

theorem classes_redraws (r : Refresh) (c : Control) (s : Screen) :
    Screen.Redraws (fun k w =>
      { w with
        aligned := (r.classesFor c k).elim w.aligned fun _ => none
        style := ((r.classesFor c k).elim w.style fun classes =>
          r.sheet.styleOf c.kind.tag c.id classes r.size w.rect.height).recolor
            (if k = c.obj then r.ruledColor? c else none) none }) s (r.classes c s) := by
  rw [classes_eq]
  cases hn : r.filled? c.classTemplate with
  | none =>
    refine (Screen.Redraws.refl s).congr fun k w _ => ?_
    simp [classesFor, ruledColor?, hn, Style.recolor]
  | some classes =>
    have hdress := Screen.redress_redraws s c.target r.sheet c.kind.tag c.id classes r.size
    cases hc : r.ruledColor? c with
    | none =>
      refine hdress.congr fun k w _ => ?_
      by_cases hk : k = c.target <;> simp [Widget.change, classesFor, hn, hk, Style.recolor]
    | some color =>
      refine (hdress.trans (Screen.redraws_modify _ c.obj _)).congr fun k w _ => ?_
      simp only [Widget.change, classesFor, hn]
      split_ifs <;> rfl

theorem bound_redraws (r : Refresh) (c : Control) (s : Screen) :
    Screen.Redraws (fun k w =>
      { w with
        text := (if k = c.obj ∧ c.bind = some r.name ∧ c.kind = .input then some r.value
          else none).getD w.text
        checked := (r.checkedFor c k).getD w.checked
        value := (r.valueFor c k).elim w.value (Widget.offer w.low w.high w.value) }) s
      (r.bound c s) := by
  by_cases hb : c.bind = some r.name
  · rw [bound, if_pos hb]
    split
    · next hk =>
      refine (Screen.redraws_modify s c.obj _).congr fun k w _ => ?_
      by_cases ho : k = c.obj <;> simp [Widget.change, checkedFor, valueFor, hb, hk, ho]
    · next hk =>
      extract_lets v
      have hvalue {w : Widget} (hw : s.widget? c.obj = some w) : s.value c.obj = w.value := by
        rw [Screen.value, hw, Option.map_some, Option.getD_some]
      by_cases hsame : s.value c.obj = v
      · rw [if_pos hsame]
        refine (Screen.Redraws.refl s).congr fun k w hw => ?_
        by_cases ho : k = c.obj
        · subst ho
          have hwv : w.value = v := (hvalue hw).symm.trans hsame
          simp [checkedFor, valueFor, Widget.offer, hb, hk, ← hwv, v]
        · simp [checkedFor, valueFor, hk, ho]
      · rw [if_neg hsame]
        refine (Screen.redraws_modify s c.obj _).congr fun k w hw => ?_
        by_cases ho : k = c.obj
        · have hwv : w.value ≠ v := fun he => hsame ((hvalue (ho ▸ hw)).trans he)
          simp [Widget.change, Widget.setValue, checkedFor, valueFor, Widget.offer, hb, hk, ho,
            hwv, v]
        · simp [Widget.change, checkedFor, valueFor, hk, ho]
    · next hk =>
      refine (Screen.redraws_modify s c.obj _).congr fun k w _ => ?_
      by_cases ho : k = c.obj <;> simp [Widget.change, checkedFor, valueFor, hb, hk, ho]
    · next hswitch hslider hinput =>
      have hs : c.kind ≠ .switch := hswitch
      have hl : c.kind ≠ .slider := hslider
      have hi : c.kind ≠ .input := hinput
      refine (Screen.Redraws.refl s).congr fun k w _ => ?_
      simp [checkedFor, valueFor, hs, hl, hi]
  · rw [bound_of_ne hb]
    refine (Screen.Redraws.refl s).congr fun k w _ => ?_
    simp [checkedFor, valueFor, hb]

theorem visibility_redraws (r : Refresh) (c : Control) (s : Screen) :
    Screen.Redraws (fun k w => { w with hidden := (r.hiddenFor c k).getD w.hidden }) s
      (r.visibility c s) := by
  by_cases hb : c.visibleBind = some r.name
  · rw [visibility, if_pos hb]
    refine (Screen.redraws_modify s c.target _).congr fun k w _ => ?_
    by_cases hk : k = c.target <;> simp [Widget.change, hiddenFor, hb, hk]
  · rw [visibility_of_ne hb]
    refine (Screen.Redraws.refl s).congr fun k w _ => ?_
    simp [hiddenFor, hb]

theorem colors_redraws (r : Refresh) (c : Control) (s : Screen) :
    Screen.Redraws (fun k w =>
      { w with
        style := w.style.recolor
          (if k = c.obj ∧ c.colorBind = some r.name then some (Color.ofAttribute r.value) else none)
          (r.backgroundFor c k) }) s (r.colors c s) := by
  unfold colors
  extract_lets background
  have hbackground : Screen.Redraws (fun k w =>
      { w with style := w.style.recolor none (r.backgroundFor c k) }) s background := by
    unfold background
    by_cases hb : c.bgcolorBind = some r.name
    · rw [if_pos hb, Screen.setBackground]
      refine ((Screen.redraws_modify s c.target _).trans
        (Screen.redraws_modify _ c.target _)).congr fun k w _ => ?_
      simp only [Widget.change, backgroundFor, hb]
      split_ifs <;> simp_all [Widget.applyStyle, Style.apply, Style.recolor]
    · rw [if_neg hb]
      refine (Screen.Redraws.refl s).congr fun k w _ => ?_
      simp [backgroundFor, hb, Style.recolor]
  by_cases hb : c.colorBind = some r.name
  · rw [if_pos hb]
    refine (hbackground.trans (Screen.redraws_modify _ c.obj _)).congr fun k w _ => ?_
    simp only [Widget.change, hb]
    split_ifs <;> simp_all [Widget.applyStyle, Style.apply, Style.recolor]
  · rw [if_neg hb]
    refine hbackground.congr fun k w _ => ?_
    simp [hb]

theorem control_redraws (hs : s.WellFormed) (hf : c.Fits s) :
    Screen.Redraws (r.redraw c) s (r.control s c) := by
  refine ((((text_redraws hs hf).trans (classes_redraws r c _)).trans
    (bound_redraws r c _)).trans (visibility_redraws r c _)).trans
    (colors_redraws r c _) |>.congr fun k w _ => ?_
  simp only [redraw, styled, Widget.change, textFor, spansFor, colorFor]
  split_ifs <;> simp_all [Style.recolor]

theorem redraw_of_not_owns (ho : ¬ c.Owns k) (w : Widget) : r.redraw c k w = w := by
  have hobj : k ≠ c.obj := fun hk => ho (hk ▸ c.owns_obj)
  have htarget : k ≠ c.target := fun hk => ho (hk ▸ c.owns_target)
  simp [redraw, styled, textFor, spansFor, checkedFor, valueFor, hiddenFor, classesFor, colorFor,
    backgroundFor, hobj, htarget, Style.recolor]

end Refresh

/-! ## The whole screen -/

namespace Session

variable {s : Session}

theorem refresh_redraws (hs : s.WellFormed) (name value : String) :
    Screen.Redraws (Controls.each (s.refreshOf name value).redraw s.controls) s.screen
      (s.refresh name value).screen :=
  Controls.foldl_redraws (fun _ _ _ => rfl) (fun _ _ w ho => Refresh.redraw_of_not_owns ho w)
    (fun _ _ hs hf => Refresh.control_redraws hs hf) hs.apart hs.screen hs.fits

end Session
end ScreenMarkup
