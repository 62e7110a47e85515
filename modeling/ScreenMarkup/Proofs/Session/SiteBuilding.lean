import ScreenMarkup.Proofs.Session.PlacementRendering
import ScreenMarkup.Proofs.Session.SiteSteps

/-!
# Building sites

Every builder fills its site: the widget stands last among its siblings, and
the control, if the element has or gets an id, has the z-index of the rules or
else the written one. A container is filled site by site.
-/

set_option autoImplicit false

namespace ScreenMarkup.Session

variable {s t u : Session} {h parent : Handle} {q : Site} {z : Option Int} {c : Control}
  {e : Element} {a a' : WidgetAttrs} {kind : ControlKind} {needed : Bool}

/-! ## Single widgets -/

theorem buildLabel_crafts (hs : s.WellFormed) (hz : s.Waits) (hp : s.screen.isLive parent = true)
    (e : Element) : Crafts (s.siteOf .label e parent) s (s.buildLabel e parent) := by
  unfold buildLabel
  extract_lets color bgcolor
  split
  next a s₁ hw =>
  extract_lets text
  split
  next h s₂ hc =>
  extract_lets s₃ i s₄ s₅ c₀ c
  rw [siteOf_eq .label (withId_eq hw) hc]
  have ha : (⟨.label, e, parent, h⟩ : Site).Named a := withId_named hw (by simp)
  have hd₂ : Works ⟨.label, e, parent, h⟩ none s s₂ := works_create hs hz hp (withId_eq hw) hc
  have ht₂ : Works _ _ s (s₂.mapScreen (·.setText h text)) :=
    hd₂.modify h ({ · with text := text })
  have hd₃ : Works _ _ s s₃ := ht₂.applyRules hs rfl (by rw [ha.same]) rfl
  have hl₃ : s₃.screen.Lies h _ := ht₂.lies_applyRules
    ((lies_create hs (withId_eq hw) hc).setText h text) rfl (by rw [ha.same]) rfl
  have hi₃ : Works _ _ s (s₃.mapScreen (·.applyInline h h i)) :=
    hd₃.touch (Screen.applyInline_restyles _ h h i)
  have hd₄ : Works _ _ s s₄ := hi₃.place h e
  have hd₅ : Works _ _ s s₅ := ((hd₄.sizeLabel h e).alignLabel h e).hideForGood h a
  have hcraft : Crafted _ a (withColorBinds c color bgcolor) s s₅ :=
    { works := ⟨_, hd₅, (if_pos rfl).symm⟩
      bears := ⟨rfl, rfl, rfl, rfl, rfl⟩
      named := ha
      obj := .inl rfl
      lies := fun _ hu => by
        obtain ⟨p, hl, hp⟩ := hi₃.lies_place rfl hu (hl₃.applyInline h i)
        exact ⟨p, lies_hideForGood (lies_alignLabel (lies_sizeLabel hl h e) h e) h a, hp⟩ }
  exact hcraft.register

/-- The label of a button and its icon stand inside of it, and do not move it. -/
theorem Works.buttonLabel (hd : Works q z s t) {label : ButtonLabel} {lbl : Option Handle}
    (hl : t.buttonLabel q.widget label = (lbl, u)) :
    Works q z s u ∧ (∀ l ∈ lbl, s.screen.isLive l = false) ∧
      ∀ p, t.screen.Lies q.widget p → u.screen.Lies q.widget p := by
  unfold Session.buttonLabel at hl
  split at hl
  · cases hl
    exact ⟨hd, nofun, fun _ hp => hp⟩
  · extract_lets text at hl
    split at hl
    next l s₁ hc =>
    extract_lets s₂ s₃ at hl
    obtain ⟨hd₁, hfresh⟩ := hd.inside hc
    have hd₂ : Works q z s s₂ :=
      (hd₁.modify l ({ · with text := text })).touch (Screen.align_restyles _ l .center {})
    have hd₃ : Works q z s s₃ := hd₂.ite (hd₂.touch (Screen.applyStyle_restyles _ l _))
    obtain ⟨rfl, rfl⟩ := Prod.mk.inj hl
    refine ⟨hd₃, fun k hk => Option.mem_some.mp hk ▸ hfresh, fun p hp => ?_⟩
    obtain ⟨hp₁, hne⟩ := hd.lies_inside hp hc
    have hp₂ : s₂.screen.Lies q.widget p := (hp₁.setText l text).align hne .center {}
    unfold s₃
    split
    · exact hp₂.applyStyle l _
    · exact hp₂

theorem Works.buttonIcon (hd : Works q z s t) {e : Element} {hasLabel : Bool}
    {icon : Option Handle} (hi : t.buttonIcon q.widget e hasLabel = (icon, u)) :
    Works q z s u ∧ (∀ k ∈ icon, s.screen.isLive k = false) ∧
      ∀ p, t.screen.Lies q.widget p → u.screen.Lies q.widget p := by
  unfold Session.buttonIcon at hi
  extract_lets src size at hi
  split at hi
  · cases hi
    exact ⟨hd, nofun, fun _ hp => hp⟩
  · split at hi
    next k s₁ hc =>
    extract_lets path at hi
    cases hi
    obtain ⟨hd₁, hfresh⟩ := hd.inside hc
    refine ⟨?_, fun l hl => Option.mem_some.mp hl ▸ hfresh, fun p hp => ?_⟩
    · exact ((hd₁.touch (Screen.configure_restyles _ k _)).touch
        (Screen.setSize_restyles _ k size size)).touch (Screen.align_restyles _ k _ {})
    · obtain ⟨hp₁, hne⟩ := hd.lies_inside hp hc
      exact ((hp₁.configure k _).setSize k size size).align hne _ {}

theorem buildButton_crafts (hs : s.WellFormed) (hz : s.Waits) (hp : s.screen.isLive parent = true)
    (e : Element) : Crafts (s.siteOf .button e parent) s (s.buildButton e parent) := by
  unfold buildButton
  extract_lets actions label color bgcolor isClickable isHoldable font isCentered
  split
  next a s₁ hw =>
  split
  next b s₂ hc =>
  split
  next lbl s₃ hl =>
  split
  next icon s₄ hi =>
  extract_lets s₅ geometry i s₆ y s₇ s₈ c₀ c
  rw [siteOf_eq .button (withId_eq hw) hc]
  have ha : (⟨.button, e, parent, b⟩ : Site).Named a := withId_named hw (by simp)
  have hd₂ : Works ⟨.button, e, parent, b⟩ none s s₂ := works_create hs hz hp (withId_eq hw) hc
  obtain ⟨hd₃, hlabel, hl₃⟩ := hd₂.buttonLabel hl
  obtain ⟨hd₄, hicon, hl₄⟩ := hd₃.buttonIcon hi
  have hd₅ : Works _ _ s s₅ := hd₄.applyRules hs rfl (by rw [ha.same]) rfl
  have hl₅ : s₅.screen.Lies b _ := hd₄.lies_applyRules
    (hl₄ _ (hl₃ _ (lies_create hs (withId_eq hw) hc))) rfl (by rw [ha.same]) rfl
  have hd₆ : Works _ _ s s₆ := hd₅.touch (Screen.applyInline_restyles _ b (lbl.getD b) i)
  have hd₇ : Works _ _ s s₇ := hd₆.ite (hd₆.touch (Screen.align_restyles _ b .topMid ⟨0, y⟩))
  have hobj : (lbl.or icon).getD b = b ∨ s.screen.isLive ((lbl.or icon).getD b) = false := by
    cases lbl with
    | some l => exact .inr (hlabel l rfl)
    | none =>
      cases icon with
      | some k => exact .inr (hicon k rfl)
      | none => exact .inl rfl
  have hcraft : Crafted _ a (withColorBinds c color bgcolor) s s₈ :=
    { works := ⟨_, hd₇.hideForGood b a, (if_pos rfl).symm⟩
      bears := ⟨rfl, rfl, rfl, rfl, rfl⟩
      named := ha
      obj := hobj
      lies := fun _ hu => by
        have hfree : ¬ isCentered := fun he => absurd (he.symm.trans hu.1) (by decide)
        obtain ⟨p, hl, hp⟩ := hd₅.lies_applyInline rfl hl₅ (lbl.getD b) (i := i)
          (if_neg hfree) rfl
        refine ⟨p, lies_hideForGood ?_ b a, hp⟩
        unfold s₇
        rw [if_neg hfree]
        exact hl }
  exact hcraft.registerWith b _ .click

/-- What the builders of switches, sliders and inputs have in common: the new widget gets its rules,
then what is written, and is hidden if it will never be seen. -/
theorem Works.bound (hs : s.WellFormed) (hd : Works ⟨kind, e, parent, h⟩ none s t)
    (hl : t.screen.Lies h {}) (ha : (⟨kind, e, parent, h⟩ : Site).Named a)
    (hr : kind.isRuled = true) (ht : kind.isText = false) (hi : kind ≠ .image) {i : Inline}
    (hx : i.x = (t.applyRules h kind a).across? e "x")
    (hy : i.y = (t.applyRules h kind a).down? e "y") :
    Crafted ⟨kind, e, parent, h⟩ a (boundControl a kind h e) s
      (((t.applyRules h kind a).mapScreen (·.applyInline h h i)).hideForGood h a) := by
  have hid : a.id = Site.selector ⟨kind, e, parent, h⟩ a.id := (if_neg hi).symm
  have hclasses : a.classes = (Site.attrs ⟨kind, e, parent, h⟩).classes := by rw [ha.same]
  have hruled := hd.applyRules hs rfl hclasses hid
  have hlies := hd.lies_applyRules hl rfl hclasses hid
  exact
    { works := ⟨_, (hruled.mapScreen (Screen.applyInline_restyles _ h h i)).hideForGood h a,
        (if_pos hr).symm⟩
      bears := ⟨rfl, rfl, rfl, rfl, rfl⟩
      named := ha
      obj := .inl rfl
      lies := fun _ _ => by
        obtain ⟨p, hp, hat⟩ := hruled.lies_applyInline ht hlies h hx hy
        exact ⟨p, lies_hideForGood hp h a, hat⟩ }

theorem buildSwitch_crafts (hs : s.WellFormed) (hz : s.Waits) (hp : s.screen.isLive parent = true)
    (e : Element) : Crafts (s.siteOf .switch e parent) s (s.buildSwitch e parent) := by
  unfold buildSwitch
  split
  next a s₁ hw =>
  extract_lets checked
  split
  next h s₂ hc =>
  extract_lets s₃ i s₄
  rw [siteOf_eq .switch (withId_eq hw) hc]
  have ha : (⟨.switch, e, parent, h⟩ : Site).Named a := withId_named hw (by simp)
  have hd₂ : Works ⟨.switch, e, parent, h⟩ none s s₂ := works_create hs hz hp (withId_eq hw) hc
  have ht₂ : Works _ _ s (s₂.mapScreen (·.setChecked h checked)) :=
    hd₂.modify h ({ · with checked := checked })
  have hl₂ : (s₂.mapScreen (·.setChecked h checked)).screen.Lies h {} :=
    (lies_create hs (withId_eq hw) hc).modify h fun _ => Widget.Rests.of_eq rfl rfl
  have hcraft : Crafted _ a (boundControl a .switch h e) s s₄ :=
    ht₂.bound hs hl₂ ha rfl rfl (by decide) rfl rfl
  exact hcraft.registerWith h _ .switch

theorem buildSlider_crafts (hs : s.WellFormed) (hz : s.Waits) (hp : s.screen.isLive parent = true)
    (e : Element) : Crafts (s.siteOf .slider e parent) s (s.buildSlider e parent) := by
  unfold buildSlider
  extract_lets low high
  split
  next a s₁ hw =>
  extract_lets initial
  split
  next h s₂ hc =>
  extract_lets s₃ s₄ i s₅
  rw [siteOf_eq .slider (withId_eq hw) hc]
  have ha : (⟨.slider, e, parent, h⟩ : Site).Named a := withId_named hw (by simp)
  have hd₂ : Works ⟨.slider, e, parent, h⟩ none s s₂ := works_create hs hz hp (withId_eq hw) hc
  have hd₃ : Works _ _ s s₃ :=
    ((hd₂.modify h (·.setRange low high)).modify h (·.setValue initial)).touch
      (Screen.resize_restyles _ h sliderWidth 0)
  have hl₂ := (lies_create hs (withId_eq hw) hc).modify h (f := (·.setRange low high))
    fun _ => Widget.Rests.of_eq rfl rfl
  have hl₃ : s₃.screen.Lies h {} := (hl₂.modify h (f := (·.setValue initial))
    fun _ => Widget.Rests.of_eq rfl rfl).resize h sliderWidth 0
  have hcraft : Crafted _ a (boundControl a .slider h e) s s₅ :=
    hd₃.bound hs hl₃ ha rfl rfl (by decide) rfl rfl
  exact hcraft.registerWith h _ .slider

theorem buildInput_crafts (hs : s.WellFormed) (hz : s.Waits) (hp : s.screen.isLive parent = true)
    (e : Element) : Crafts (s.siteOf .input e parent) s (s.buildInput e parent) := by
  unfold buildInput
  split
  next a s₁ hw =>
  extract_lets initial
  split
  next h s₂ hc =>
  extract_lets s₃ s₄ geometry i s₅
  rw [siteOf_eq .input (withId_eq hw) hc]
  have ha : (⟨.input, e, parent, h⟩ : Site).Named a := withId_named hw (by simp)
  have hd₂ : Works ⟨.input, e, parent, h⟩ none s s₂ := works_create hs hz hp (withId_eq hw) hc
  have hd₃ := (hd₂.modify h (·.configure (.placeholder (e.attr "placeholder")))).modify h
    ({ · with text := initial })
  have hd₃ := (hd₃.modify h (·.configure (.password (flag e "password")))).modify h
    (·.configure (.oneLine (!flag e "multiline")))
  have hd₃ := (hd₃.modify h (·.applyStyle (.bgOpacity 0))).mapScreen
    (f := (·.setSize h inputWidth inputHeight)) (Screen.setSize_restyles _ h _ _)
  simp only [mapScreen_mapScreen] at hd₃
  change Works _ none s s₃ at hd₃
  have hl₂ := ((lies_create hs (withId_eq hw) hc).configure h
    (.placeholder (e.attr "placeholder"))).setText h initial
  have hl₃ : s₃.screen.Lies h {} := by
    dsimp only [s₃, mapScreen]
    exact (((hl₂.configure h _).configure h _).applyStyle h _).setSize h _ _
  have hcraft : Crafted _ a (boundControl a .input h e) s s₅ :=
    hd₃.bound hs hl₃ ha rfl rfl (by decide) rfl rfl
  exact hcraft.registerWith h _ .input

theorem buildMarkdown_crafts (hs : s.WellFormed) (hz : s.Waits)
    (hp : s.screen.isLive parent = true) (e : Element) :
    Crafts (s.siteOf .markdown e parent) s (s.buildMarkdown e parent) := by
  unfold buildMarkdown
  extract_lets isDynamic theme
  split
  next a s₁ hw =>
  extract_lets text
  split
  next h s₂ hc =>
  extract_lets s₃ geometry i s₄ s₅ c₀ c
  rw [siteOf_eq .markdown (withId_eq hw) hc]
  have ha : (⟨.markdown, e, parent, h⟩ : Site).Named a := withId_named hw (by simp)
  have hd₂ : Works ⟨.markdown, e, parent, h⟩ none s s₂ := works_create hs hz hp (withId_eq hw) hc
  have hd₃ : Works _ _ s s₃ := hd₂.applyRules hs rfl (by rw [ha.same]) rfl
  have hl₃ : s₃.screen.Lies h _ := hd₂.lies_applyRules (lies_create hs (withId_eq hw) hc) rfl
    (by rw [ha.same]) rfl
  have hi₃ : Works _ _ s (s₃.mapScreen (·.applyInline h h i)) :=
    hd₃.touch (Screen.applyInline_restyles _ h h i)
  have hd₄ : Works _ _ s s₄ := hi₃.place h e
  have hd₅ : Works _ _ s s₅ :=
    (hd₄.modify h (·.setSpans (Markdown.render text theme))).hideForGood h a
  have hbears : c.Bears ⟨.markdown, e, parent, h⟩ a ∧ c.obj = h := by
    unfold c
    split <;> exact ⟨⟨rfl, rfl, rfl, rfl, rfl⟩, rfl⟩
  have hcraft : Crafted _ a c s s₅ :=
    { works := ⟨_, hd₅, (if_pos rfl).symm⟩
      bears := hbears.1
      named := ha
      obj := .inl hbears.2
      lies := fun _ hu => by
        obtain ⟨p, hl, hp⟩ := hi₃.lies_place rfl hu (hl₃.applyInline h i)
        have hspans := hl.modify h (f := (·.setSpans (Markdown.render text theme)))
          fun _ => Widget.Rests.of_eq rfl rfl
        exact ⟨p, lies_hideForGood hspans h a, hp⟩ }
  exact hcraft.register

/-- An image may be given its id when all but the control is finished. -/
theorem Works.image
    (hd : Works ⟨.image, e, parent, h⟩ (Site.ruled ⟨.image, e, parent, h⟩ s "") s t)
    (hl : Site.Unaligned ⟨.image, e, parent, h⟩ → ∃ p, t.screen.Lies h p ∧
      ∀ b : Axis, b.part p = Site.coordinate ⟨.image, e, parent, h⟩ s "" b)
    (hw : t.withId (WidgetAttrs.ofElement e) .image needed = (a, u))
    (hc : c.Bears ⟨.image, e, parent, h⟩ a) (hobj : c.obj = h) :
    Crafted ⟨.image, e, parent, h⟩ a c s u where
  works := ⟨_, hd.withId hw, (if_pos rfl).symm⟩
  bears := hc
  named := withId_named hw (by simp)
  obj := .inl hobj
  lies _ hu := by
    obtain ⟨n, rfl⟩ := withId_eq hw
    exact hl hu

/-- The rules are applied to an image before it may be given an id. -/
theorem buildImage_crafts (hs : s.WellFormed) (hz : s.Waits) (hp : s.screen.isLive parent = true)
    (e : Element) : Crafts (s.siteOf .image e parent) s (s.buildImage e parent) := by
  unfold buildImage
  extract_lets a onclick isCentered
  split
  next h s₁ hc =>
  extract_lets path s₂ geometry i s₃ y s₄ s₅ s₆
  have hsame : ∃ n, s = { s with autoId := n } := ⟨s.autoId, rfl⟩
  rw [siteOf_eq .image hsame hc]
  have hd₁ : Works ⟨.image, e, parent, h⟩ none s s₁ := works_create hs hz hp hsame hc
  have ht₁ : Works _ _ s (s₁.mapScreen (·.configure h (.imageSource path))) :=
    hd₁.mapScreen (Screen.configure_restyles _ h (.imageSource path))
  have hd₂ : Works ⟨.image, e, parent, h⟩ (Site.ruled ⟨.image, e, parent, h⟩ s "") s s₂ :=
    ht₁.applyRules hs rfl rfl rfl
  have hl₂ : s₂.screen.Lies h
      (Offset.moved {} (Site.ruledPosition ⟨.image, e, parent, h⟩ s "")) :=
    ht₁.lies_applyRules ((lies_create hs hsame hc).configure h (.imageSource path)) rfl rfl rfl
  have hd₃ : Works _ _ s s₃ := hd₂.mapScreen (Screen.applyInline_restyles _ h h i)
  have hd₄ : Works _ _ s s₄ := hd₃.ite (hd₃.mapScreen (Screen.align_restyles _ h .topMid ⟨0, y⟩))
  have hd₅ : Works _ _ s s₅ := hd₄.hideForGood h a
  have hl₅ (hu : Site.Unaligned ⟨.image, e, parent, h⟩) : ∃ p, s₅.screen.Lies h p ∧
      ∀ b : Axis, b.part p = Site.coordinate ⟨.image, e, parent, h⟩ s "" b := by
    have hfree : ¬ isCentered := fun he => absurd (he.symm.trans hu.1) (by decide)
    obtain ⟨p, hl, hp⟩ := hd₂.lies_applyInline rfl hl₂ h (i := i) (if_neg hfree) (if_neg hfree)
    refine ⟨p, lies_hideForGood ?_ h a, hp⟩
    unfold s₄
    rw [if_neg hfree]
    exact hl
  split
  · split
    next a' s₇ hw =>
    have hcraft : Crafted _ a' (a'.control .image h) s s₇ :=
      hd₅.image hl₅ hw ⟨rfl, rfl, rfl, rfl, rfl⟩ rfl
    exact hcraft.register
  · split
    next a' s₇ hw =>
    extract_lets c₀ c
    have hd₆ : Works _ _ s s₆ := hd₅.mapScreen (Screen.configure_restyles _ h (.clickable true))
    have hcraft : Crafted ⟨.image, e, parent, h⟩ a' c s s₇ := by
      refine hd₆.image (fun hu => ?_) hw ⟨rfl, rfl, rfl, rfl, rfl⟩ rfl
      obtain ⟨p, hl, hp⟩ := hl₅ hu
      exact ⟨p, hl.configure h (.clickable true), hp⟩
    exact hcraft.registerWith h _ .click

/-! ## Canvases -/

/-- A canvas that is made is a site, and one that is not leaves nothing. -/
theorem buildCanvas_seats (hs : s.WellFormed) (hz : s.Waits) (hp : s.screen.isLive parent = true)
    (e : Element) :
    SeatsIn parent ([s.siteOf .canvas e parent].filter fun q =>
      (s.buildCanvas e parent).screen.isLive q.widget) s (s.buildCanvas e parent) := by
  unfold buildCanvas
  extract_lets actions w n x y background isTouched
  split
  next a s₁ hw =>
  split
  next h s₂ hc =>
  extract_lets s₃ s₄ c₀
  rw [siteOf_eq .canvas (withId_eq hw) hc]
  have ha : (⟨.canvas, e, parent, h⟩ : Site).Named a := withId_named hw (by simp)
  have hd₂ : Works ⟨.canvas, e, parent, h⟩ none s s₂ := works_create hs hz hp (withId_eq hw) hc
  have hd₃ : Works _ _ s s₃ :=
    (hd₂.touch (Screen.setPos_restyles _ h x y)).touch (Screen.setSize_restyles _ h w n)
  split
  · have hleaf : s₃.screen.branch? h = some (Branch.leaf h) := by
      obtain ⟨k, rfl⟩ := withId_eq hw
      rw [create_eq] at hc
      cases hc
      have hshape : s₃.screen.shape = (s.screen.create .canvas parent).2.shape :=
        (Screen.modify_shape _).trans (Screen.modify_shape _)
      rw [Screen.branch?, hshape]
      exact hs.screen.toSound.branch?_create .canvas parent
    exact hd₃.discard hs hleaf
  · next canvas _ =>
    extract_lets c
    have hd₄ : Works _ _ s s₄ :=
      (hd₃.mapScreen (Screen.invalidate_restyles _ h)).hideForGood h a
    have hcraft {t : Session} (hd : Works ⟨.canvas, e, parent, h⟩ none s t) :
        Crafted _ a c s t :=
      { works := ⟨none, hd, rfl⟩
        bears := ⟨rfl, rfl, rfl, rfl, rfl⟩
        named := ha
        obj := .inl rfl
        lies := fun hk => by cases hk }
    split
    · have hd₅ : Works _ _ s (s₄.mapScreen (·.configure h (.clickable true))) :=
        hd₄.touch (Screen.configure_restyles s₄.screen h (.clickable true))
      exact (((hcraft hd₅).registerWith h _ .canvas).seats hs hz hp).made
    · exact ((hcraft hd₄).register.seats hs hz hp).made

theorem buildLeaf_seats (hs : s.WellFormed) (hz : s.Waits) (hp : s.screen.isLive parent = true)
    (kind : ControlKind) (e : Element) :
    SeatsIn parent ([s.siteOf kind e parent].filter fun q =>
      (s.buildLeaf kind e parent).screen.isLive q.widget) s (s.buildLeaf kind e parent) := by
  have hnone : SeatsIn parent
      ([s.siteOf kind e parent].filter fun q => s.screen.isLive q.widget) s s := by
    have hfresh : ([s.siteOf kind e parent].filter fun q => s.screen.isLive q.widget) = [] :=
      List.filter_eq_nil_iff.mpr fun q hq => by
        rw [List.mem_singleton.mp hq, Screen.isLive, siteOf, create_eq,
          hs.screen.toSound.create_fresh]
        decide
    rw [hfresh]
    exact (Fills.refl hs).toSeats
  cases kind with
  | label => exact ((buildLabel_crafts hs hz hp e).seats hs hz hp).made
  | button => exact ((buildButton_crafts hs hz hp e).seats hs hz hp).made
  | switch => exact ((buildSwitch_crafts hs hz hp e).seats hs hz hp).made
  | slider => exact ((buildSlider_crafts hs hz hp e).seats hs hz hp).made
  | input => exact ((buildInput_crafts hs hz hp e).seats hs hz hp).made
  | canvas => exact buildCanvas_seats hs hz hp e
  | image => exact ((buildImage_crafts hs hz hp e).seats hs hz hp).made
  | markdown => exact ((buildMarkdown_crafts hs hz hp e).seats hs hz hp).made
  | tabs => exact hnone
  | page => exact hnone

/-! ## Tabs -/

theorem createTabView_works (hs : s.WellFormed) (hz : s.Waits) (hp : s.screen.isLive parent = true)
    (hv : s.createTabView e parent = (h, t)) :
    s.siteOf .tabs e parent = ⟨.tabs, e, parent, h⟩ ∧ Works ⟨.tabs, e, parent, h⟩ none s t := by
  have hsame : ∃ n, s = { s with autoId := n } := ⟨s.autoId, rfl⟩
  obtain ⟨u, hc, v, hr, rfl⟩ := createTabView_restyles hv
  have hd : Works ⟨.tabs, e, parent, h⟩ none s u := works_create hs hz hp hsame hc
  exact ⟨siteOf_eq .tabs hsame hc, hd.touch hr⟩

/-- A tab is no site. -/
theorem createTab_fills (hs : s.WellFormed) {view : Handle} (hp : s.Holds view)
    (hv : s.createTab e view = (h, t)) :
    Fills (· = view) (· = view) [] s t ∧ s.screen.isLive h = false := by
  obtain ⟨C, -, hd⟩ := createTab_draft hs hp hv
  obtain ⟨u, hc, v, ht, rfl⟩ := createTab_touches hv
  obtain ⟨k, hk, -⟩ := hp
  have hlive := Screen.isLive_of_kind? hk
  rw [create_eq] at hc
  cases hc
  have hmade := (Screen.sprouts_create hs.screen.toSound .tab hlive).touch ht
  have hempty : v.children (s.screen.create .tab view).1 = [] :=
    (ht.children _).trans (Screen.children_create_new hs.screen.toSound .tab hlive)
  exact ⟨⟨⟨hmade.nothing hs.screen.toSound hlive hempty, Records.nil rfl fun _ hz => hz, by simp⟩,
    hd.builds⟩, hmade.fresh⟩

/-- Tabs without an id are in no control, and no visibility hides them. -/
theorem bare_tabs (hs : s.WellFormed) {view : Handle} (hd : Works ⟨.tabs, e, parent, view⟩ none s t)
    (hh : t.screen.Shown view) (hb : Builds t u) (hid : e.attr "id" = "") :
    Site.Bare ⟨.tabs, e, parent, view⟩ (u.hideForGood view (WidgetAttrs.ofElement e)) := by
  have hbare : Site.Bare ⟨.tabs, e, parent, view⟩ t := ⟨hid, hd.unowned hs, fun _ => ⟨rfl, hh⟩⟩
  have hlater := hbare.extend (hd.sprouts.live view (.inr rfl)) hb
  refine ⟨hid, fun c hc => ?_, fun hv => ⟨rfl, ?_⟩⟩
  · obtain ⟨v, -, he⟩ := u.hideForGood_touches view (WidgetAttrs.ofElement e)
    rw [he] at hc
    exact hlater.unowned c hc
  · have hbound : (WidgetAttrs.ofElement e).hasBoundVisibility = true := hv
    have hgood : (WidgetAttrs.ofElement e).isHiddenForGood = false := by
      simp [WidgetAttrs.isHiddenForGood, hbound]
    rw [hideForGood, hgood]
    exact (hlater.visible hv).2

/-- Nothing but the view changes when its tabs are finished, and the new control is its own. -/
theorem finishTabs_eq (s : Session) (e : Element) (view : Handle) :
    ∃ v new waiting, Screen.Touches (· = view) Widget.SameKind s.screen v ∧
      (∀ c ∈ new, ∀ h, c.Owns h → h = view) ∧
      s.finishTabs e view =
        { s with screen := v, controls := s.controls ++ new, pendingZ := waiting } := by
  unfold Session.finishTabs
  extract_lets a
  obtain ⟨v, hv, he⟩ := s.hideForGood_touches view a
  rw [he]
  generalize hc : ({ a.control .tabs view with classTemplate := none } : Control) = c
  have hobj : c.obj = view ∧ c.outer = none := by
    rw [← hc]
    exact ⟨rfl, rfl⟩
  by_cases hid : c.id = ""
  · refine ⟨v, [], s.pendingZ, hv, by simp, ?_⟩
    rw [Session.register, if_pos hid, List.append_nil]
  · obtain ⟨z, waiting, hr⟩ := ({ s with screen := v } : Session).register_eq c hid
    have hveiled := ({ s with screen := v } : Session).veiled_touches c
    rw [Control.target, hobj.2, Option.getD_none, hobj.1] at hveiled
    refine ⟨_, [{ c with zIndex := z }], waiting,
      Screen.Touches.trans (fun _ _ _ p q => Eq.trans q p) hv hveiled, fun d hd h ho => ?_, ?_⟩
    · rw [List.mem_singleton.mp hd] at ho
      rcases ho with ho | ho
      · exact ho.symm.trans hobj.1
      · cases hobj.2.symm.trans ho
    · rw [hr]

theorem finishTabs_touches (s : Session) (e : Element) (view : Handle) :
    Screen.Touches (· = view) Widget.SameKind s.screen (s.finishTabs e view).screen := by
  obtain ⟨v, new, waiting, hv, -, he⟩ := s.finishTabs_eq e view
  rw [he]
  exact hv

theorem finishTabs_bare {view : Handle} (hq : q.Bare s)
    (hne : q.widget ≠ view) (e : Element) : q.Bare (s.finishTabs e view) := by
  obtain ⟨v, new, waiting, ht, hnew, he⟩ := s.finishTabs_eq e view
  rw [he]
  refine ⟨hq.unnamed, fun c hc ho => ?_, fun hv => ?_⟩
  · rcases List.mem_append.mp hc with hc | hc
    · exact hq.unowned c hc ho
    · exact hne (hnew c hc _ ho)
  · obtain ⟨hk, hh⟩ := hq.visible hv
    refine ⟨hk, ?_⟩
    rw [Screen.Shown, ht.frame _ hne]
    exact hh

theorem finishTabs_lands {view : Handle} (hq : q.Lands s) (hne : q.widget ≠ view) (e : Element) :
    q.Lands (s.finishTabs e view) := by
  obtain ⟨v, new, waiting, ht, hnew, he⟩ := s.finishTabs_eq e view
  rw [he]
  exact hq.keep (ht.frame _ hne) ⟨new, rfl, fun c hc ho => hne (hnew c hc _ ho)⟩ rfl rfl rfl

/-- The tabs are recorded after what stands in them. -/
theorem finishTabs_seats (hs : s.WellFormed) (hp : s.screen.isLive parent = true) {view : Handle}
    {qs : List Site} (hd : Works ⟨.tabs, e, parent, view⟩ none s t)
    (hh : t.screen.Shown view) (hb : Builds s t) (hf : Fills (· = view) (· = view) qs t u) :
    SeatsIn parent (qs ++ [⟨.tabs, e, parent, view⟩]) s (u.finishTabs e view) := by
  have hlive : t.screen.isLive view = true := hd.sprouts.live view (.inr rfl)
  have hother : ∀ q ∈ qs, q.widget ≠ view := fun q hq he => by
    have hfresh := hf.plants.fresh _ (List.mem_map_of_mem hq)
    rw [show q.planting.2 = view from he, hlive] at hfresh
    cases hfresh
  have hnone : u.pendingZ.lookup view = none := by
    refine hf.records.waiting view (fun hin => ?_) ?_
    · obtain ⟨q, hq, he⟩ := List.mem_map.mp hin
      exact hother q hq he
    · rw [hd.waiting, if_pos rfl]
  obtain ⟨v, -, he⟩ := u.hideForGood_touches view (WidgetAttrs.ofElement e)
  have hview : Records [⟨.tabs, e, parent, view⟩] u (u.finishTabs e view) := by
    have hhide : Records [] u (u.hideForGood view (WidgetAttrs.ofElement e)) := by
      rw [he]
      exact Records.nil rfl fun _ hz => hz
    have hclaimed : (u.hideForGood view (WidgetAttrs.ofElement e)).claimed
        { (WidgetAttrs.ofElement e).control .tabs view with classTemplate := none } = none := by
      rw [he]
      exact Option.or_none.trans hnone
    exact hhide.trans (register_records ⟨rfl, rfl, rfl, rfl, rfl⟩ rfl (fun _ => rfl)
      (by rw [hclaimed]; rfl) fun hid => bare_tabs hs hd hh hf.builds hid)
      (by rw [he]) (by rw [he]) (by simp)
  refine ⟨?_, ?_, fun q hq hk hu => ?_⟩
  · rw [List.map_append]
    exact ((hd.sprouts.plants hs.screen.toSound hp).enclose hp hf.plants).touch
      (u.finishTabs_touches e view)
  · have hmade : Records [] s t := Records.nil hd.controls fun h hz => by
      rw [hd.waiting, hz, ite_self]
    exact hmade.trans (hf.records.trans hview hf.builds.sheet hf.builds.store
      fun q hq hb => finishTabs_bare hb (hother q hq) e) hb.sheet hb.store (by simp)
  · rcases List.mem_append.mp hq with hq | hq
    · exact finishTabs_lands (hf.lands q hq hk hu) (hother q hq) e
    · rw [List.mem_singleton.mp hq] at hk
      cases hk

/-! ## Containers -/

/-- An element is left out, a set of tabs, or built as one site. -/
theorem sitesIn_cases (parent : Handle) (tag : String) (attrs : NameTable) (text : String)
    (children : List Element) (inner : String) (s : Session) :
    let e : Element := ⟨tag, attrs, text, children, inner⟩
    (sitesIn parent e s = [] ∧ buildWidget parent e s = s) ∨
    (∃ view t, s.createTabView e parent = (view, t) ∧
      sitesIn parent e s = sitesInTabs view children t ++ [s.siteOf .tabs e parent] ∧
      buildWidget parent e s = (buildTabs view children t).finishTabs e view) ∨
    ∃ kind, (sitesIn parent e s = [s.siteOf kind e parent].filter fun q =>
        (s.buildLeaf kind e parent).screen.isLive q.widget) ∧
      buildWidget parent e s = s.buildLeaf kind e parent := by
  intro e
  rw [sitesIn, buildWidget]
  cases ControlKind.ofTag? tag with
  | none => exact .inl ⟨rfl, rfl⟩
  | some kind =>
    cases kind with
    | tabs => exact .inr (.inl ⟨_, _, rfl, rfl, rfl⟩)
    | _ => exact .inr (.inr ⟨_, rfl, rfl⟩)

mutual
theorem buildWidget_fills (e : Element) {s : Session} {parent : Handle} (hs : s.WellFormed)
    (hz : s.Waits) (hp : s.Holds parent) :
    Fills (· = parent) (fun _ => False) (sitesIn parent e s) s (buildWidget parent e s) := by
  have hlive : s.screen.isLive parent = true := by
    obtain ⟨k, hk, -⟩ := hp
    exact Screen.isLive_of_kind? hk
  refine ⟨?_, buildWidget_builds e hs hp⟩
  obtain ⟨tag, attrs, text, children, inner⟩ := e
  rcases sitesIn_cases parent tag attrs text children inner s with
    ⟨hsites, hbuilt⟩ | ⟨view, s₁, hv, hsites, hbuilt⟩ | ⟨kind, hsites, hbuilt⟩
  · rw [hsites, hbuilt]
    exact (Fills.refl hs).toSeats
  · obtain ⟨hsite, hworks⟩ := createTabView_works hs hz hlive hv
    rw [hsites, hbuilt, hsite]
    have hd := createTabView_draft hs hp hv
    obtain ⟨w, hw, hwc⟩ := hd.content _ List.mem_cons_self
    have hshown : s₁.screen.Shown view :=
      ⟨w, hw, congrArg (·.kind.navigates) hwc, congrArg WidgetContent.hidden hwc⟩
    have htabs := buildTabs_fills children (hd.builds.wellFormed hs) (hworks.waits hz)
      (hd.holds rfl)
    exact finishTabs_seats hs hlive hworks hshown hd.builds htabs
  · rw [hsites, hbuilt]
    exact buildLeaf_seats hs hz hlive kind _
theorem buildAll_fills (es : List Element) {s : Session} {parent : Handle} (hs : s.WellFormed)
    (hz : s.Waits) (hp : s.Holds parent) :
    Fills (· = parent) (fun _ => False) (sitesInAll parent es s) s (buildAll parent es s) := by
  cases es with
  | nil =>
    rw [sitesInAll, buildAll]
    exact Fills.refl hs
  | cons e es =>
    rw [sitesInAll, buildAll]
    have he := buildWidget_fills e hs hz hp
    exact he.trans (buildAll_fills es (he.builds.wellFormed hs) (he.waits hz)
      (he.builds.holds hp)) (fun _ _ hk => hk) fun _ hk => hk
theorem buildTabs_fills (es : List Element) {s : Session} {view : Handle} (hs : s.WellFormed)
    (hz : s.Waits) (hp : s.Holds view) :
    Fills (· = view) (· = view) (sitesInTabs view es s) s (buildTabs view es s) := by
  cases es with
  | nil =>
    rw [sitesInTabs, buildTabs]
    exact Fills.refl hs
  | cons e es =>
    obtain ⟨tag, attrs, text, children, inner⟩ := e
    rw [sitesInTabs, buildTabs]
    by_cases htag : tag = "tab"
    · rw [if_pos htag, if_pos htag]
      generalize hv : s.createTab ⟨tag, attrs, text, children, inner⟩ view = made
      obtain ⟨tab, s₁⟩ := made
      obtain ⟨C, hC, hd⟩ := createTab_draft hs hp hv
      obtain ⟨hmade, hfresh⟩ := createTab_fills hs hp hv
      have htab := buildAll_fills children (hd.builds.wellFormed hs) (hmade.waits hz)
        (hd.holds (by rw [hC]; rfl))
      -- a tab is new, so nothing is put into a widget that was there
      have hnew : ∀ k, s.screen.isLive k = true → k = tab → k = view := fun k hl hk => by
        rw [hk, hfresh] at hl
        cases hl
      have hfirst := hmade.trans htab hnew fun _ hk => hk.elim
      exact hfirst.trans (buildTabs_fills es (hfirst.builds.wellFormed hs) (hfirst.waits hz)
        (hfirst.builds.holds hp)) (fun _ _ hk => hk) fun _ hk => hk
    · rw [if_neg htag, if_neg htag]
      exact buildTabs_fills es hs hz hp
end

end ScreenMarkup.Session
