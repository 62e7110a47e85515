import ScreenMarkup.Proofs.Screen.Looks
import ScreenMarkup.Session.Build.Inline

/-!
# Paint

The paint of a style are its colors, its font and its radius: what inline
attributes set. They are applied after the rules, so the paint they give is
the paint that stays. What comes after them moves a widget, aligns its text or
hides it, and none of this is paint.
-/

set_option autoImplicit false

namespace ScreenMarkup

/-- What inline attributes may set of a style. -/
def Style.paint (s : Style) : Style where
  textColor := s.textColor
  bgColor := s.bgColor
  bgOpacity := s.bgOpacity
  font := s.font
  radius := s.radius

theorem Widget.setSize_style (w : Widget) (p : Option Size) (x y : Int) :
    (w.setSize p x y).style = w.style :=
  congrArg Looks.style (w.setSize_looks p x y)

theorem Widget.align_style (w : Widget) (p : Option Size) (a : Align) (shift : Offset) :
    (w.align p a shift).style = w.style := by
  rw [align, realign]

theorem Widget.configure_style (w : Widget) (setting : Setting) :
    (w.configure setting).style = w.style := by
  cases setting <;> rfl

namespace Screen

variable {s t u : Screen} {h k : Handle}

/-! ## What is no paint -/

/-- Every widget has the paint it had. -/
def SamePaint (s t : Screen) : Prop := ∀ h, (t.style h).paint = (s.style h).paint

namespace SamePaint

theorem refl (s : Screen) : SamePaint s s := fun _ => rfl

theorem trans (h₁ : SamePaint s t) (h₂ : SamePaint t u) : SamePaint s u :=
  fun h => (h₂ h).trans (h₁ h)

theorem ite {c : Prop} [Decidable c] (ht : SamePaint s t) :
    SamePaint s (if c then t else s) := by
  split
  · exact ht
  · exact refl s

end SamePaint

theorem style_of_ne (hk : k ≠ h) (f : Widget → Widget) : (s.modify h f).style k = s.style k := by
  rw [style, widget?_modify, if_neg hk]
  rfl

/-- Changes of anything but the style. -/
theorem style_modify {f : Widget → Widget} (hf : ∀ w, (f w).style = w.style) (k : Handle) :
    (s.modify h f).style k = s.style k := by
  by_cases hk : k = h
  · rw [style, style, widget?_modify, if_pos hk, hk, Option.map_map]
    cases s.widget? h with
    | none => rfl
    | some w => exact hf w
  · exact style_of_ne hk f

theorem samePaint_modify {f : Widget → Widget} (hf : ∀ w, (f w).style.paint = w.style.paint) :
    SamePaint s (s.modify h f) := by
  intro k
  by_cases hk : k = h
  · rw [style, style, widget?_modify, if_pos hk, hk, Option.map_map]
    cases s.widget? h with
    | none => rfl
    | some w => exact hf w
  · rw [style_of_ne hk]

theorem samePaint_setPos (s : Screen) (h : Handle) (x y : Int) : SamePaint s (s.setPos h x y) :=
  samePaint_modify fun _ => rfl

theorem samePaint_setSize (s : Screen) (h : Handle) (x y : Int) : SamePaint s (s.setSize h x y) :=
  samePaint_modify fun w => congrArg Style.paint (w.setSize_style _ x y)

theorem samePaint_align (s : Screen) (h : Handle) (a : Align) (shift : Offset) :
    SamePaint s (s.align h a shift) :=
  samePaint_modify fun w => congrArg Style.paint (w.align_style _ a shift)

theorem samePaint_configure (s : Screen) (h : Handle) (setting : Setting) :
    SamePaint s (s.configure h setting) :=
  samePaint_modify fun w => congrArg Style.paint (w.configure_style setting)

theorem samePaint_setHidden (s : Screen) (h : Handle) (b : Bool) :
    SamePaint s (s.setHidden h b) :=
  samePaint_modify fun _ => rfl

theorem samePaint_setSpans (s : Screen) (h : Handle) (spans : List Span) :
    SamePaint s (s.setSpans h spans) :=
  samePaint_modify fun _ => rfl

theorem samePaint_resize (s : Screen) (h : Handle) (x y : Int) : SamePaint s (s.resize h x y) :=
  samePaint_setSize s h _ _

theorem samePaint_alignText (s : Screen) (h : Handle) (valign : String) (height : Int) :
    SamePaint s (s.alignText h valign height) := by
  unfold alignText
  split
  · exact SamePaint.refl s
  · exact SamePaint.ite (samePaint_modify fun _ => rfl)

/-! ## Inline attributes -/

theorem style_applyStyle (hl : s.isLive h = true) (p : StyleChange) :
    (s.applyStyle h p).style h = (s.style h).apply p := by
  obtain ⟨w, hw⟩ := isLive_iff.mp hl
  rw [style, style, applyStyle, widget?_modify, if_pos rfl, hw]
  rfl

theorem isLive_applyStyle (k : Handle) (p : StyleChange) :
    (s.applyStyle h p).isLive k = s.isLive k :=
  (applyStyle_restyles s h p).isLive k

/-- The style of a widget after a change of its own or of another widget. -/
theorem style_applyStyle_eq (hl : s.isLive h = true) (k : Handle) (p : StyleChange) :
    (s.applyStyle h p).style k = if k = h then (s.style k).apply p else s.style k := by
  split
  · next hk => rw [hk, style_applyStyle hl]
  · next hk => exact style_of_ne hk _

/-- The paint that inline attributes give to a widget and to the text inside of it. -/
structure Painted (s : Screen) (h text : Handle) (i : Inline) : Prop where
  color : ∀ c, i.color = some c → (s.style text).textColor = some c
  bgcolor : ∀ c, i.bgcolor = some c →
    (s.style h).bgColor = some c ∧ (s.style h).bgOpacity = some Style.cover
  radius : ∀ r, i.radius = some r → (s.style h).radius = some r
  font : ∀ f, i.font = some f → (s.style text).font = some (Font.nearest f)

theorem Painted.congr {text : Handle} {i : Inline} (hp : Painted s h text i)
    (ho : (t.style h).paint = (s.style h).paint)
    (ht : (t.style text).paint = (s.style text).paint) : Painted t h text i where
  color c hc := (congrArg Style.textColor ht).trans (hp.color c hc)
  bgcolor c hc := ⟨(congrArg Style.bgColor ho).trans (hp.bgcolor c hc).1,
    (congrArg Style.bgOpacity ho).trans (hp.bgcolor c hc).2⟩
  radius r hr := (congrArg Style.radius ho).trans (hp.radius r hr)
  font f hf := (congrArg Style.font ht).trans (hp.font f hf)

theorem Painted.samePaint {text : Handle} {i : Inline} (hp : Painted s h text i)
    (hs : SamePaint s t) : Painted t h text i :=
  hp.congr (hs h) (hs text)

/-! Each attribute adds to the paint, whatever was painted before. -/

namespace Painted

variable {text : Handle} {i : Inline}

theorem none (s : Screen) (h text : Handle) : Painted s h text {} :=
  ⟨nofun, nofun, nofun, nofun⟩

theorem withBackground (hp : Painted s h text i) (hh : s.isLive h = true) (c : Nat) :
    Painted (s.setBackground h c) h text { i with bgcolor := some c } := by
  have hl : (s.applyStyle h (.bgColor c)).isLive h = true := (isLive_applyStyle h _).trans hh
  have hstyle (k : Handle) : (s.setBackground h c).style k = if k = h then
      { s.style k with bgColor := some c, bgOpacity := some Style.cover } else s.style k := by
    show ((s.applyStyle h (.bgColor c)).applyStyle h (.bgOpacity Style.cover)).style k = _
    rw [style_applyStyle_eq hl, style_applyStyle_eq hh]
    split <;> rfl
  refine ⟨fun d hd => ?_, fun d hd => ?_, fun r hr => ?_, fun f hf => ?_⟩
  · rw [hstyle]
    split <;> exact hp.color d hd
  · rw [hstyle, if_pos rfl]
    exact ⟨hd, rfl⟩
  · rw [hstyle, if_pos rfl]
    exact hp.radius r hr
  · rw [hstyle]
    split <;> exact hp.font f hf

theorem withRadius (hp : Painted s h text i) (hh : s.isLive h = true) (r : Int) :
    Painted (s.applyStyle h (.radius r)) h text { i with radius := some r } := by
  refine ⟨fun d hd => ?_, fun d hd => ?_, fun q hq => ?_, fun f hf => ?_⟩
  · rw [style_applyStyle_eq hh]
    split <;> exact hp.color d hd
  · rw [style_applyStyle hh]
    exact hp.bgcolor d hd
  · rw [style_applyStyle hh]
    exact hq
  · rw [style_applyStyle_eq hh]
    split <;> exact hp.font f hf

theorem withColor (hp : Painted s h text i) (ht : s.isLive text = true) (c : Nat) :
    Painted (s.applyStyle text (.textColor c)) h text { i with color := some c } := by
  refine ⟨fun d hd => ?_, fun d hd => ?_, fun r hr => ?_, fun f hf => ?_⟩
  · rw [style_applyStyle ht]
    exact hd
  · rw [style_applyStyle_eq ht]
    split <;> exact hp.bgcolor d hd
  · rw [style_applyStyle_eq ht]
    split <;> exact hp.radius r hr
  · rw [style_applyStyle ht]
    exact hp.font f hf

theorem withFont (hp : Painted s h text i) (ht : s.isLive text = true) (f : Int) :
    Painted (s.applyStyle text (.font (Font.nearest f))) h text { i with font := some f } := by
  refine ⟨fun d hd => ?_, fun d hd => ?_, fun r hr => ?_, fun g hg => ?_⟩
  · rw [style_applyStyle ht]
    exact hp.color d hd
  · rw [style_applyStyle_eq ht]
    split <;> exact hp.bgcolor d hd
  · rw [style_applyStyle_eq ht]
    split <;> exact hp.radius r hr
  · rw [style_applyStyle ht, ← Option.some.inj hg]
    rfl

end Painted

/-- Whatever the style was before, inline attributes have the last word. -/
theorem painted_applyInline {text : Handle} (hh : s.isLive h = true)
    (ht : s.isLive text = true) (i : Inline) : Painted (s.applyInline h text i) h text i := by
  obtain ⟨x, y, w, n, color, bgcolor, font, radius⟩ := i
  unfold applyInline
  extract_lets s₁ s₂ s₃ s₄ s₅
  have hlive (k : Handle) : s₁.isLive k = s.isLive k ∧ s₂.isLive k = s₁.isLive k ∧
      s₃.isLive k = s₂.isLive k := by
    refine ⟨?_, ?_, ?_⟩
    · cases bgcolor with
      | none => rfl
      | some c => exact (applyStyles_restyles s h _).isLive k
    · cases radius with
      | none => rfl
      | some r => exact isLive_applyStyle k _
    · cases color with
      | none => rfl
      | some c => exact isLive_applyStyle k _
  have h₁ : Painted s₁ h text { bgcolor := bgcolor } := by
    cases bgcolor with
    | none => exact Painted.none s h text
    | some c => exact (Painted.none s h text).withBackground hh c
  have h₂ : Painted s₂ h text { bgcolor := bgcolor, radius := radius } := by
    cases radius with
    | none => exact h₁
    | some r => exact h₁.withRadius ((hlive h).1.trans hh) r
  have ht₂ : s₂.isLive text = true := (hlive text).2.1.trans ((hlive text).1.trans ht)
  have h₃ : Painted s₃ h text { bgcolor := bgcolor, radius := radius, color := color } := by
    cases color with
    | none => exact h₂
    | some c => exact h₂.withColor ht₂ c
  have h₄ : Painted s₄ h text
      { bgcolor := bgcolor, radius := radius, color := color, font := font } := by
    cases font with
    | none => exact h₃
    | some f => exact h₃.withFont ((hlive text).2.2.trans ht₂) f
  have h₅ : SamePaint s₄ s₅ := (samePaint_setPos s₄ h _ _).ite
  have h₆ : SamePaint s₅ (if (w.isSome || n.isSome) = true then
      s₅.setSize h (w.getD (s₅.rect h).width) (n.getD (s₅.rect h).height) else s₅) :=
    (samePaint_setSize s₅ h _ _).ite
  have hplaced := h₄.samePaint (h₅.trans h₆)
  exact ⟨hplaced.color, hplaced.bgcolor, hplaced.radius, hplaced.font⟩

end Screen
end ScreenMarkup
