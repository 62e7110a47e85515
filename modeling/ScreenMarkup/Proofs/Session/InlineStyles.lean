import ScreenMarkup.Proofs.Session.PlacementRendering

/-!
# Inline attributes beat the rules

Whatever rules a document has: an element with inline attributes ends a
rendering in the colors, the font and the radius that they ask for. Placing,
stacking and showing the first page leave them.
-/

set_option autoImplicit false

namespace ScreenMarkup

/-! ## What inline attributes decide -/

/-- The inline attributes that beat the rules. -/
inductive Override where
  | color | bgcolor | font | radius
deriving DecidableEq, Inhabited

namespace Placed

variable (p : Placed)

/-- The element writes the attribute itself, not as the value of a variable, and its builder
honours it. -/
def Writes : Override → Prop
  | .color => p.showsText = true ∧ p.color ≠ "" ∧ Template.isDynamic p.color = false
  | .bgcolor => p.bgcolor ≠ "" ∧ Template.isDynamic p.bgcolor = false
  | .font => p.showsText = true ∧ 0 < p.font
  | .radius => 0 < p.radius

/-- The widget that an attribute styles. -/
def bearer : Override → Handle
  | .color | .font => p.inner
  | .bgcolor | .radius => p.outer

/-- The style is as the attribute says. -/
def Has (style : Style) : Override → Prop
  | .color => style.textColor = some (Color.ofAttribute p.color)
  | .bgcolor => style.bgColor = some (Color.ofAttribute p.bgcolor) ∧
    style.bgOpacity = some Style.cover
  | .font => style.font = some (Font.nearest p.font)
  | .radius => style.radius = some p.radius

variable {p : Placed} {s : Session} {o : Override}

theorem Writes.isStyled (hw : p.Writes o) : p.kind.isStyled = true := by
  obtain ⟨kind, e, outer, inner⟩ := p
  cases o <;> cases kind <;> simp_all [Writes, color, bgcolor, font, radius, ControlKind.isStyled]

theorem writtenColor_literal {color : String} (hc : color ≠ "")
    (hd : Template.isDynamic color = false) :
    s.writtenColor color = some (Color.ofAttribute color) := by
  simp [Session.writtenColor, hd, hc]

/-- The paint of inline attributes is what they say. -/
theorem has_of_painted {v : Screen} (hp : v.Painted p.outer p.inner (p.inline s))
    (hw : p.Writes o) : p.Has (v.style (p.bearer o)) o := by
  cases o with
  | color =>
    obtain ⟨hshows, hc, hd⟩ := hw
    exact hp.color _ ((if_pos hshows).trans (writtenColor_literal hc hd))
  | bgcolor => exact hp.bgcolor _ (writtenColor_literal hw.1 hw.2)
  | font =>
    exact hp.font _ ((if_pos hw.1).trans (if_pos hw.2))
  | radius => exact hp.radius _ (if_pos hw)

end Placed

namespace Session

/-- Inline attributes beat the rules: whatever rules and widgets there are, every widget of a styled
kind that a rendering makes belongs to an element of the document, each such element has its
widgets, and every inline attribute that it writes and its builder honours decides the color of its
text, its opaque background, its font and its radius. -/
theorem render_honours_inline (config : Config) (history : List Operation) (markup : String) :
    let s := (Session.new config).after history
    let t := s.render markup
    Placed.Covers (s.placed markup) s.screen t.screen ∧
    ∀ p ∈ s.placed markup, (p.kind.isStyled = true → p.Made t.screen) ∧
      ∀ o, p.Writes o → p.Has (t.screen.style (p.bearer o)) o := by
  intro s t
  have hs : s.WellFormed := (wellFormed_new config).after history
  refine ⟨render_covers hs markup, fun p hp => ?_⟩
  have hstands := render_stands hs markup p hp
  exact ⟨fun hk => (hstands hk).made, fun o hw =>
    Placed.has_of_painted (hstands hw.isStyled).painted hw⟩

/-- A button against a rule for its tag, one for its class and one for its id. -/
theorem render_honours_inline_of_button :
    let s := (Session.new {}).after []
    let markup := "<style>button \x7b color: red; border-radius: 9; \x7d" ++
      ".c \x7b background: red; \x7d #b \x7b font-size: 72; \x7d</style>" ++
      "<button id='b' class='c' color='#00ff00' bgcolor='#0000ff' font='16' radius='4'>Go</button>"
    let t := s.render markup
    ∃ p ∈ s.placed markup, p.Made t.screen ∧
      (t.screen.style p.inner).textColor = some 0x00FF00 ∧
      (t.screen.style p.inner).font = some .small ∧
      (t.screen.style p.outer).bgColor = some 0x0000FF ∧
      (t.screen.style p.outer).bgOpacity = some 255 ∧
      (t.screen.style p.outer).radius = some 4 := by
  intro s markup t
  have hplaced : ∃ p ∈ s.placed markup, p.kind = .button ∧ p.showsText = true ∧
      p.color = "#00ff00" ∧ p.bgcolor = "#0000ff" ∧ p.font = 16 ∧ p.radius = 4 := by
    decide +kernel
  obtain ⟨p, hp, hkind, hshows, hcolor, hbgcolor, hfont, hradius⟩ := hplaced
  obtain ⟨hmade, hall⟩ := (render_honours_inline {} [] markup).2 p hp
  have hc := hall .color ⟨hshows, by rw [hcolor]; decide, by rw [hcolor]; decide⟩
  have hb := hall .bgcolor ⟨by rw [hbgcolor]; decide, by rw [hbgcolor]; decide⟩
  have hf := hall .font ⟨hshows, by rw [hfont]; decide⟩
  have hr := hall .radius (by rw [Placed.Writes, hradius]; decide)
  rw [Placed.Has, hcolor] at hc
  rw [Placed.Has, hbgcolor] at hb
  rw [Placed.Has, hfont] at hf
  rw [Placed.Has, hradius] at hr
  exact ⟨p, hp, hmade (by rw [hkind]; rfl), hc, hf, hb.1, hb.2, hr⟩

end Session
end ScreenMarkup
