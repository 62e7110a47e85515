import ScreenMarkup.Proofs.Session.InlineStyles
import ScreenMarkup.Proofs.Session.WriteRuns

/-!
# What a change of classes leaves

A rendering styles an element by its classes and then by its inline
attributes. New classes style its widget from scratch, by the rules alone: an
inline attribute is kept where the rules happen to say the same. The text
inside a button is not styled from scratch. It keeps its font, and it keeps a
color of earlier classes until the rules give it another one.
-/

set_option autoImplicit false

namespace ScreenMarkup

/-! ## The control of an element with classes -/

namespace Control

variable {c : Control} {p : Placed} {s t : Session} {o : Override}

namespace Serves

theorem template (hc : c.Serves p) (hd : Template.isDynamic p.classes = true) :
    c.classTemplate = some p.classes := by
  rw [hc.classes, dynamic?, if_pos hd]

theorem colorBind_of_literal (hc : c.Serves p) (hd : Template.isDynamic p.color = false) :
    c.colorBind = none := by
  simp [hc.color, ControlKind.colorBind, hd]

theorem bgcolorBind_of_literal (hc : c.Serves p) (hd : Template.isDynamic p.bgcolor = false) :
    c.bgcolorBind = none := by
  simp [hc.bgcolor, ControlKind.colorBind, hd]

/-- A text that has a widget of its own is the inner widget of its control. -/
theorem inside (hc : c.Serves p) (hm : p.Made s.screen) (hne : p.inner ≠ p.outer) :
    c.outer.isSome = true ∧ c.obj = p.inner ∧ c.obj ≠ c.target := by
  obtain ⟨hbutton, hshows, -, -⟩ := hm.inner.resolve_left hne
  have hobj := hc.obj hshows
  refine ⟨hc.outer.mpr hbutton, hobj, ?_⟩
  rw [hobj, hc.target]
  exact hne

/-- No binding sets what an inline attribute writes on the widget that the classes style. -/
theorem has_styled (hc : c.Serves p) (hw : p.Writes o) (r : Refresh) (height : Int)
    (style : Style) :
    p.Has (r.styled c c.target height style) o = p.Has (r.based c c.target height style) o := by
  cases o with
  | color =>
    have hbind := hc.colorBind_of_literal hw.2.2
    simp only [Placed.Has, Refresh.styled_textColor hbind]
  | bgcolor =>
    have hback := Refresh.backgroundFor_unbound (r := r) (k := c.target)
      (hc.bgcolorBind_of_literal hw.2)
    rw [Refresh.styled_eq, hback]
    rfl
  | font => rfl
  | radius => rfl

end Serves

/-- The last color that some classes, one after the other, give to a text. -/
def lastColor (c : Control) (s : Session) (lists : List String) : Option Nat :=
  (lists.filterMap fun classes => (c.look s classes).textColor).getLast?

end Control

/-- The condition on which an attribute outlives classes that come one after the other: the rules
give the same to the widget itself for the last classes, and to a text inside, of which only the
color changes, the same last color or none. -/
def Placed.Outlives (p : Placed) (c : Control) (s : Session) (lists : List String)
    (o : Override) : Prop :=
  if p.bearer o = p.outer then ∀ classes ∈ lists.getLast?, p.Has (c.look s classes) o
  else o = .color → ∀ color ∈ c.lastColor s lists, color = Color.ofAttribute p.color

theorem Placed.Stands.follows {p : Placed} {t : Session} (hp : p.Stands t)
    (hd : Template.isDynamic p.classes = true) : ∃ c ∈ t.controls, c.Serves p := by
  rcases hp.served with hserved | ⟨hbound, -⟩
  · exact hserved
  · rw [Placed.isBound, hd, Bool.true_or] at hbound
    cases hbound

namespace Session

variable {t : Session} {c : Control} {p : Placed} {o : Override}

/-! ## The widget that the classes style -/

theorem has_assignAll_outer (ht : t.WellFormed) (hc : c ∈ t.controls) (hserves : c.Serves p)
    (hd : Template.isDynamic p.classes = true) (hw : p.Writes o)
    (hhas : p.Has (t.screen.style p.outer) o) (writes : List (String × String)) :
    p.Has ((t.assignAll writes).screen.style p.outer) o ↔
      ∀ classes ∈ (t.store.fills p.classes writes).getLast?, p.Has (c.look t classes) o := by
  have hrun := assignAll_property (f := (p.Has · o)) ht hc (hserves.template hd)
    (hserves.has_styled hw) writes
  rw [hserves.target] at hrun
  rw [hrun]
  cases (t.store.fills p.classes writes).getLast? with
  | none => simpa using hhas
  | some classes => simp

/-! ## The text inside -/

theorem style_assignAll_inner (ht : t.WellFormed) (hc : c ∈ t.controls) (hserves : c.Serves p)
    (hd : Template.isDynamic p.classes = true) (hm : p.Made t.screen) (hne : p.inner ≠ p.outer)
    (hcolor : Template.isDynamic p.color = false) (writes : List (String × String)) :
    (t.assignAll writes).screen.style p.inner =
      (t.screen.style p.inner).recolor (c.lastColor t (t.store.fills p.classes writes)) none := by
  obtain ⟨houter, hobj, htarget⟩ := hserves.inside hm hne
  have hrun := assignAll_inner ht hc (hserves.template hd) houter htarget
    (hserves.colorBind_of_literal hcolor) writes
  rw [hobj] at hrun
  exact hrun

theorem has_assignAll_inner (ht : t.WellFormed) (hc : c ∈ t.controls) (hserves : c.Serves p)
    (hd : Template.isDynamic p.classes = true) (hm : p.Made t.screen) (hw : p.Writes o)
    (hne : p.bearer o ≠ p.outer) (hhas : p.Has (t.screen.style (p.bearer o)) o)
    (writes : List (String × String)) :
    p.Has ((t.assignAll writes).screen.style (p.bearer o)) o ↔
      (o = .color → ∀ color ∈ c.lastColor t (t.store.fills p.classes writes),
        color = Color.ofAttribute p.color) := by
  cases o with
  | color =>
    have hstyle := style_assignAll_inner ht hc hserves hd hm hne hw.2.2 writes
    rw [Placed.Has, Placed.bearer] at hhas ⊢
    rw [hstyle, Style.recolor, hhas]
    cases c.lastColor t (t.store.fills p.classes writes) <;> simp
  | font =>
    obtain ⟨-, hobj, htarget⟩ := hserves.inside hm hne
    have huncolored := congrArg Style.font (assignAll_inner_uncolored ht hc htarget writes)
    rw [hobj] at huncolored
    refine iff_of_true (Eq.trans huncolored hhas) fun ho => ?_
    cases ho
  | bgcolor => exact absurd rfl hne
  | radius => exact absurd rfl hne

/-- Whatever rules there are: an inline attribute of an element with classes decides its property
when the element is rendered, and it still does after a run of writes exactly when it outlives the
classes of that run. -/
theorem inline_outlives_classes_iff (config : Config) (history : List Operation)
    (markup : String) :
    let s := (Session.new config).after history
    let t := s.render markup
    ∀ p ∈ s.placed markup, p.kind.isStyled = true → Template.isDynamic p.classes = true →
      ∃ c ∈ t.controls, c.Serves p ∧ ∀ o, p.Writes o →
        p.Has (t.screen.style (p.bearer o)) o ∧
        ∀ writes, p.Has ((t.assignAll writes).screen.style (p.bearer o)) o ↔
          p.Outlives c t (t.store.fills p.classes writes) o := by
  intro s t p hp hk hd
  have hs : s.WellFormed := (wellFormed_new config).after history
  have ht : t.WellFormed := hs.render markup
  have hstands := render_stands hs markup p hp hk
  obtain ⟨c, hc, hserves⟩ := hstands.follows hd
  refine ⟨c, hc, hserves, fun o hw => ?_⟩
  have hhas := Placed.has_of_painted hstands.painted hw
  refine ⟨hhas, fun writes => ?_⟩
  unfold Placed.Outlives
  split
  · next hb =>
    rw [hb] at hhas ⊢
    exact has_assignAll_outer ht hc hserves hd hw hhas writes
  · next hne => exact has_assignAll_inner ht hc hserves hd hstands.made hw hne hhas writes

/-- The font of a button's text, which new classes leave. -/
theorem inline_outlives_classes_of_font :
    let s := (Session.new {}).after []
    let markup := "<style>.a \x7b font-size: 72; \x7d</style><state><string name='v'/></state>" ++
      "<button class='\x7bv\x7d' font='16'>Go</button>"
    let t := s.render markup
    ∃ p ∈ s.placed markup, p.inner ≠ p.outer ∧
      ((t.assignAll [("v", "a")]).screen.style p.inner).font = some .small := by
  intro s markup t
  have hplaced : ∃ p ∈ s.placed markup, p.kind = .button ∧ p.showsText = true ∧ p.font = 16 ∧
      Template.isDynamic p.classes = true ∧ p.inner ≠ p.outer := by
    decide +kernel
  obtain ⟨p, hp, hkind, hshows, hfont, hd, hne⟩ := hplaced
  obtain ⟨c, -, -, hall⟩ := inline_outlives_classes_iff {} [] markup p hp (by rw [hkind]; rfl) hd
  have hbearer : p.bearer .font ≠ p.outer := hne
  have hkept := ((hall .font ⟨hshows, by rw [hfont]; decide⟩).2 [("v", "a")]).mpr (by
    rw [Placed.Outlives, if_neg hbearer]
    exact fun ho => nomatch ho)
  rw [Placed.Has, hfont] at hkept
  exact ⟨p, hp, hne, hkept⟩

/-- A class of a label takes the color away that it writes itself. -/
theorem not_inline_outlives_classes :
    ¬ ∀ (config : Config) (history : List Operation) (markup : String),
      let s := (Session.new config).after history
      let t := s.render markup
      ∀ p ∈ s.placed markup, p.kind.isStyled = true → Template.isDynamic p.classes = true →
        ∀ writes : List (String × String),
          (∀ w ∈ writes, Template.mentions p.classes w.1 = true) →
          ∀ o, p.Writes o → p.Has (t.screen.style (p.bearer o)) o →
            p.Has ((t.assignAll writes).screen.style (p.bearer o)) o := by
  intro hall
  have hplaced : ∃ p ∈ ((Session.new {}).after []).placed
      ("<state><string name='v'/></state>" ++
        "<label id='l' class='\x7bv\x7d' color='#00ff00'>x</label>"),
      p.kind = .label ∧ p.classes = "\x7bv\x7d" ∧ p.color = "#00ff00" ∧ p.inner = ⟨1, 1⟩ := by
    decide +kernel
  obtain ⟨p, hp, hkind, hclasses, hcolor, hinner⟩ := hplaced
  have hwrites : p.Writes .color := by
    refine ⟨?_, ?_, ?_⟩
    · rw [Placed.showsText, hkind]
      rfl
    · rw [hcolor]
      decide
    · rw [hcolor]
      decide
  have hkept := hall {} [] _ p hp (by rw [hkind]; rfl) (by rw [hclasses]; decide) [("v", "a")]
    (by rw [hclasses]; decide) .color hwrites
  rw [Placed.Has, Placed.Has, Placed.bearer, hinner, hcolor] at hkept
  revert hkept
  decide +kernel

/-! ## Two runs -/

/-- The run refreshes the classes of an element, and the last ones that it gives are these. -/
def EndsIn (t : Session) (p : Placed) (writes : List (String × String)) (classes : String) : Prop :=
  (t.store.fills p.classes writes).getLast? = some classes

/-- They are the classes that the variables tell at the end of the run. -/
theorem endsIn_iff {writes : List (String × String)} {classes : String}
    (hn : ∀ w ∈ writes, w.1 ≠ "") :
    t.EndsIn p writes classes ↔ t.store.fills p.classes writes ≠ [] ∧
      Template.render p.classes (t.assignAll writes).store = classes := by
  rw [assignAll_store]
  exact Store.fills_getLast?_iff hn

/-- The color of a text inside after some classes: the last one that they give, or the old one. -/
def shadeAfter (t : Session) (c : Control) (p : Placed) (writes : List (String × String)) :
    Option Nat :=
  (c.lastColor t (t.store.fills p.classes writes)).or (t.screen.style p.inner).textColor

theorem style_assignAll_outer (ht : t.WellFormed) (hc : c ∈ t.controls) (hserves : c.Serves p)
    (hd : Template.isDynamic p.classes = true) (hcolor : Template.isDynamic p.color = false)
    (hbgcolor : Template.isDynamic p.bgcolor = false) {writes : List (String × String)}
    {classes : String} (hlast : t.EndsIn p writes classes) :
    (t.assignAll writes).screen.style p.outer = c.look t classes := by
  have hrun := assignAll_property (f := fun style => style) ht hc (hserves.template hd)
    (fun _ _ _ => Refresh.styled_target (hserves.colorBind_of_literal hcolor)
      (hserves.bgcolorBind_of_literal hbgcolor)) writes
  rw [hserves.target, show (t.store.fills p.classes writes).getLast? = some classes from hlast]
    at hrun
  exact hrun

/-- Two runs that end in the same classes leave an element of unbound colors with the same outer
style, and both leave its place. The text inside a button has the same style after both
exactly when the last colors that their classes give it are the same. -/
theorem class_runs_agree_iff (config : Config) (history : List Operation) (markup : String) :
    let s := (Session.new config).after history
    let t := s.render markup
    ∀ p ∈ s.placed markup, p.kind.isStyled = true → Template.isDynamic p.classes = true →
      Template.isDynamic p.color = false → Template.isDynamic p.bgcolor = false →
      ∃ c ∈ t.controls, c.Serves p ∧ ∀ writes₁ writes₂ classes,
        t.EndsIn p writes₁ classes → t.EndsIn p writes₂ classes →
        let u₁ := t.assignAll writes₁
        let u₂ := t.assignAll writes₂
        u₁.screen.style p.outer = u₂.screen.style p.outer ∧
        (u₁.screen.rect p.outer = t.screen.rect p.outer ∧
          u₂.screen.rect p.outer = t.screen.rect p.outer) ∧
        (u₁.screen.style p.inner = u₂.screen.style p.inner ↔
          p.inner = p.outer ∨ t.shadeAfter c p writes₁ = t.shadeAfter c p writes₂) := by
  intro s t p hp hk hd hcolor hbgcolor
  have hs : s.WellFormed := (wellFormed_new config).after history
  have ht : t.WellFormed := hs.render markup
  have hstands := render_stands hs markup p hp hk
  obtain ⟨c, hc, hserves⟩ := hstands.follows hd
  refine ⟨c, hc, hserves, fun writes₁ writes₂ classes h₁ h₂ => ?_⟩
  have houter : (t.assignAll writes₁).screen.style p.outer =
      (t.assignAll writes₂).screen.style p.outer := by
    rw [style_assignAll_outer ht hc hserves hd hcolor hbgcolor h₁,
      style_assignAll_outer ht hc hserves hd hcolor hbgcolor h₂]
  have howns : c.Owns p.outer := hserves.target ▸ c.owns_target
  refine ⟨houter, ⟨assignAll_rect ht hc howns writes₁, assignAll_rect ht hc howns writes₂⟩, ?_⟩
  by_cases hne : p.inner = p.outer
  · rw [hne]
    exact iff_of_true houter (.inl rfl)
  · rw [style_assignAll_inner ht hc hserves hd hstands.made hne hcolor,
      style_assignAll_inner ht hc hserves hd hstands.made hne hcolor, or_iff_right hne]
    exact ⟨congrArg Style.textColor, fun hshade => congrArg
      (fun color => { t.screen.style p.inner with textColor := color }) hshade⟩

/-- Both runs end with a class that colors the text of a button. -/
theorem class_runs_agree_of_colored :
    let s := (Session.new {}).after []
    let markup := "<style>.a \x7b color: red; \x7d .b \x7b color: blue; \x7d</style>" ++
      "<state><string name='v'/></state><button class='\x7bv\x7d'>Go</button>"
    let t := s.render markup
    ∃ p ∈ s.placed markup, p.inner ≠ p.outer ∧
      (t.assignAll [("v", "a"), ("v", "b")]).screen.style p.inner =
        (t.assignAll [("v", "b")]).screen.style p.inner := by
  intro s markup t
  have hplaced : ∃ p ∈ s.placed markup, p.kind = .button ∧ p.classes = "\x7bv\x7d" ∧
      p.color = "" ∧ p.bgcolor = "" ∧ p.inner ≠ p.outer := by
    decide +kernel
  obtain ⟨p, hp, hkind, hclasses, hcolor, hbgcolor, hne⟩ := hplaced
  obtain ⟨c, hc, hserves, hall⟩ := class_runs_agree_iff {} [] markup p hp (by rw [hkind]; rfl)
    (by rw [hclasses]; decide) (by rw [hcolor]; decide) (by rw [hbgcolor]; decide)
  have hends₁ : t.EndsIn p [("v", "a"), ("v", "b")] "b" := by
    rw [endsIn_iff (by decide), hclasses]
    decide +kernel
  have hends₂ : t.EndsIn p [("v", "b")] "b" := by
    rw [endsIn_iff (by decide), hclasses]
    decide +kernel
  obtain ⟨-, -, hinner⟩ := hall _ _ _ hends₁ hends₂
  refine ⟨p, hp, hne, hinner.mpr (.inr ?_)⟩
  have hshade : ∀ d ∈ t.controls,
      d.lastColor t (t.store.fills "\x7bv\x7d" [("v", "a"), ("v", "b")]) =
        d.lastColor t (t.store.fills "\x7bv\x7d" [("v", "b")]) := by
    decide +kernel
  rw [shadeAfter, shadeAfter, hclasses, hshade c hc]

/-- The class that a button had for a while leaves its color on the text inside. -/
theorem not_class_runs_agree :
    ¬ ∀ (config : Config) (history : List Operation) (markup : String),
      let s := (Session.new config).after history
      let t := s.render markup
      ∀ p ∈ s.placed markup, p.kind.bindsColors = true → Template.isDynamic p.classes = true →
        p.color = "" → p.bgcolor = "" → p.font = 0 → p.radius = 0 →
        ∀ writes₁ writes₂ : List (String × String),
          (t.store.fills p.classes writes₁ ≠ [] ∧ t.store.fills p.classes writes₂ ≠ []) →
          Template.render p.classes (t.assignAll writes₁).store =
            Template.render p.classes (t.assignAll writes₂).store →
          (t.assignAll writes₁).screen.style p.inner =
            (t.assignAll writes₂).screen.style p.inner := by
  intro hall
  have hplaced : ∃ p ∈ ((Session.new {}).after []).placed
      ("<app><style>.a \x7b color: #ff0000; \x7d</style><state><string name='v'/></state>" ++
        "<ui><button id='b' class='\x7bv\x7d'>Go</button></ui></app>"),
      p.kind = .button ∧ p.classes = "\x7bv\x7d" ∧ p.color = "" ∧ p.bgcolor = "" ∧ p.font = 0 ∧
        p.radius = 0 ∧ p.inner = ⟨2, 1⟩ := by
    decide +kernel
  obtain ⟨p, hp, hkind, hclasses, hcolor, hbgcolor, hfont, hradius, hinner⟩ := hplaced
  have hsame := hall {} [] _ p hp (by rw [hkind]; rfl) (by rw [hclasses]; decide) hcolor hbgcolor
    hfont hradius [("v", "a"), ("v", "b")] [("v", "b")]
  rw [hclasses, hinner] at hsame
  have hcolors := congrArg Style.textColor (hsame (by decide +kernel) (by decide +kernel))
  revert hcolors
  decide +kernel

end Session
end ScreenMarkup
