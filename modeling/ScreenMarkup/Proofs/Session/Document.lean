import ScreenMarkup.Proofs.Session.Building
import ScreenMarkup.Proofs.State.Canonical

/-!
# Building documents

The builders of bound widgets, and the recursion over the elements of a
container.
-/

set_option autoImplicit false

namespace ScreenMarkup

/-- A number that was written is a 32-bit integer, like the one that stands in for it. -/
theorem Element.attrInt_mem (e : Element) (name : String) (fallback : Int)
    (hf : Numeric.minInt32 ≤ fallback ∧ fallback ≤ Numeric.maxInt32) :
    Numeric.minInt32 ≤ e.attrInt name fallback ∧ e.attrInt name fallback ≤ Numeric.maxInt32 := by
  unfold attrInt
  split
  · exact Numeric.leadingInt_mem _
  · exact hf

namespace Session

variable {s t u : Session} {parts : List (Handle × WidgetContent)} {h parent : Handle}
  {C : WidgetContent}

/-! ## Bound widgets -/

theorem boundText_eq {v : String} {e : Element} (ht : t.store = s.store)
    (hv : Control.nonempty? (e.attr "bind") = some v) :
    t.boundText (e.attr "bind") = s.store.text v := by
  obtain ⟨rfl, hne⟩ := Control.nonempty?_eq hv
  rw [boundText, if_neg hne, ht]

/-- The control of a bound widget that shows the value of its variable. -/
theorem drawn_bound {a : WidgetAttrs} {kind : ControlKind} {e : Element} (hkind : kind ≠ .page)
    (hhidden : C.hidden = false) (hC : C.kind.navigates = false)
    (hvalue : (boundControl a kind h e).ValueIn s.store C)
    (hslider : kind = .slider → C.InRange) :
    (boundControl a kind h e).Drawn s.store
      ((h, { C with hidden := a.isHiddenForGood || C.hidden }) :: parts) :=
  Control.Drawn.single rfl rfl hkind rfl hhidden hC (fun t ht => by cases ht) hvalue
    (fun ht => absurd rfl ht) (fun _ => rfl) fun hk => ⟨rfl, hslider hk⟩

theorem buildSwitch_builds (hs : s.WellFormed) (hp : s.Holds parent) (e : Element) :
    Builds s (s.buildSwitch e parent) := by
  unfold buildSwitch
  split
  next a s₁ hw =>
  extract_lets checked
  split
  next h s₂ hc =>
  extract_lets s₃ i s₄
  have hd₁ : Draft s [] s₁ := (Draft.nil (Builds.refl hs.screen)).withId hw
  have hd₂ := hd₁.create hs (hd₁.builds.holds hp) hc
  have hd₃ : Draft s _ s₃ := (hd₂.setChecked checked).applyRules .switch a
  have hd₄ : Draft s _ s₄ := (hd₃.applyInline i).hideForGood a
  refine hd₄.registerWith (drawn_bound (fun hk => by cases hk) rfl rfl (fun v hv => ?_)
    fun hk => by cases hk) h _
    fun i hi => by cases hi
  show checked = readBool (s.store.text v)
  rw [← boundText_eq hd₁.builds.store hv]

theorem buildSlider_builds (hs : s.WellFormed) (hp : s.Holds parent) (e : Element) :
    Builds s (s.buildSlider e parent) := by
  unfold buildSlider
  extract_lets low high
  split
  next a s₁ hw =>
  extract_lets initial
  split
  next h s₂ hc =>
  extract_lets s₃ s₄ i s₅
  have hd₁ : Draft s [] s₁ := (Draft.nil (Builds.refl hs.screen)).withId hw
  have hd₂ := hd₁.create hs (hd₁.builds.holds hp) hc
  have hd₃ : Draft s _ s₃ := ((hd₂.setRange low high).setValue initial).restyleHead
    (f := (·.resize h sliderWidth 0)) (Screen.resize_restyles _ h _ _)
  have hd₄ : Draft s _ s₄ := hd₃.applyRules .slider a
  have hd₅ : Draft s _ s₅ := (hd₄.applyInline i).hideForGood a
  refine hd₅.registerWith (drawn_bound (fun hk => by cases hk) rfl rfl (fun v hv => ?_)
    fun _ => ?_) h _
    fun i hi => by cases hi
  · show Widget.clampValue low high initial =
      Widget.clampValue low high (Numeric.leadingInt (s.store.text v).toList)
    rw [← boundText_eq hd₁.builds.store hv]
  · have hlow := e.attrInt_mem "min" sliderLow (by decide)
    have hhigh := e.attrInt_mem "max" sliderHigh (by decide)
    exact WidgetContent.InRange.clamp rfl hlow hhigh.2

theorem buildInput_builds (hs : s.WellFormed) (hp : s.Holds parent) (e : Element) :
    Builds s (s.buildInput e parent) := by
  unfold buildInput
  split
  next a s₁ hw =>
  extract_lets initial
  split
  next h s₂ hc =>
  extract_lets s₃ s₄ geometry i s₅
  have hd₁ : Draft s [] s₁ := (Draft.nil (Builds.refl hs.screen)).withId hw
  have hd₂ := hd₁.create hs (hd₁.builds.holds hp) hc
  have hd₃ := ((hd₂.configure (.placeholder (e.attr "placeholder"))).setText initial).configure
    (.password (flag e "password"))
  have hd₃ := (hd₃.configure (.oneLine (!flag e "multiline"))).applyStyle (.bgOpacity 0)
  have hd₃ := hd₃.setSize inputWidth inputHeight
  simp only [mapScreen_mapScreen] at hd₃
  change Draft s _ s₃ at hd₃
  have hd₄ : Draft s _ s₄ := hd₃.applyRules .input a
  have hd₅ : Draft s _ s₅ := (hd₄.applyInline i).hideForGood a
  refine hd₅.registerWith (drawn_bound (fun hk => by cases hk) rfl rfl (fun v hv => ?_)
    fun hk => by cases hk) h _
    fun i hi => by cases hi
  exact boundText_eq hd₁.builds.store hv

/-! ## Pictures -/

/-- The control of a widget that shows nothing bound. -/
theorem drawn_plain {store : Store} {a : WidgetAttrs} {c : Control} (hobj : c.obj = h)
    (houter : c.outer = none) (hkind : c.kind ≠ .page) (hslider : c.kind ≠ .slider)
    (hvisible : c.visibleBind = (a.control c.kind h).visibleBind) (hhidden : C.hidden = false)
    (hC : C.kind.navigates = false) (htemplate : c.template = none) (hbind : c.bind = none) :
    c.Drawn store ((h, { C with hidden := a.isHiddenForGood || C.hidden }) :: parts) := by
  refine Control.Drawn.single hobj houter hkind hvisible hhidden hC (fun t ht => ?_)
    (fun v hv => ?_) (fun ht => absurd htemplate ht) (fun hb => absurd hbind hb)
    fun hk => absurd hk hslider
  · rw [htemplate] at ht
    cases ht
  · rw [hbind] at hv
    cases hv

theorem withId_visibleBind {a a' : WidgetAttrs} {kind : ControlKind} {needed : Bool}
    (hw : t.withId a kind needed = (a', u)) (h : Handle) :
    (a'.control kind h).visibleBind = (a.control kind h).visibleBind := by
  unfold withId at hw
  split at hw <;> cases hw <;> rfl

theorem buildImage_builds (hs : s.WellFormed) (hp : s.Holds parent) (e : Element) :
    Builds s (s.buildImage e parent) := by
  unfold buildImage
  extract_lets a onclick isCentered
  split
  next h s₁ hc =>
  extract_lets path s₂ geometry i s₃ y s₄ s₅ s₆
  have hd₁ := (Draft.nil (Builds.refl hs.screen)).create hs hp hc
  have hd₂ : Draft s _ s₂ := (hd₁.configure (.imageSource path)).applyRules .image a
  have hd₃ : Draft s _ s₃ := hd₂.applyInline i
  have hd₄ : Draft s _ s₄ := hd₃.alignIf .topMid ⟨0, y⟩
  have hd₅ : Draft s _ s₅ := hd₄.hideForGood a
  split
  · split
    next a' s₆ hw =>
    exact (hd₅.withId hw).register (drawn_plain rfl rfl (fun hk => by cases hk)
      (fun hk => by cases hk)
      (withId_visibleBind hw h) rfl rfl rfl rfl)
  · split
    next a' s₇ hw =>
    extract_lets c₀ c
    have hd₆ : Draft s _ s₆ := hd₅.configure (.clickable true)
    exact (hd₆.withId hw).registerWith (drawn_plain (c := c) rfl rfl (fun hk => by cases hk)
      (fun hk => by cases hk)
      (withId_visibleBind hw h) rfl rfl rfl rfl) h _ fun i hi => by cases hi

theorem buildCanvas_builds (hs : s.WellFormed) (hp : s.Holds parent) (e : Element) :
    Builds s (s.buildCanvas e parent) := by
  unfold buildCanvas
  extract_lets actions w n x y background isTouched
  split
  next a s₁ hw =>
  split
  next h s₂ hc =>
  extract_lets s₃ s₄ c₀
  have hd₁ : Draft s [] s₁ := (Draft.nil (Builds.refl hs.screen)).withId hw
  have hd₂ := hd₁.create hs (hd₁.builds.holds hp) hc
  have hd₃ : Draft s _ s₃ := (hd₂.restyleHead (f := (·.setPos h x y))
    (Screen.setPos_restyles _ h _ _)).setSize w n
  split
  · exact hd₃.discard rfl rfl
  · next canvas _ =>
    extract_lets c
    have hd₄ : Draft s _ s₄ := (hd₃.restyleHead (f := (·.invalidate h))
      (Screen.invalidate_restyles _ h)).hideForGood a
    split
    · exact (hd₄.configure (.clickable true)).registerWith
        (drawn_plain rfl rfl (fun hk => by cases hk) (fun hk => by cases hk) rfl rfl rfl rfl rfl)
        h _
        fun i hi => by cases hi
    · exact hd₄.register (drawn_plain rfl rfl (fun hk => by cases hk) (fun hk => by cases hk)
        rfl rfl rfl rfl rfl)

/-! ## Tabs -/

/-- A new view is made, and then only restyled. -/
theorem createTabView_restyles {e : Element} (hv : s.createTabView e parent = (h, t)) :
    ∃ u, s.create .tabView parent = (h, u) ∧
      ∃ v, Screen.Restyles (· = h) u.screen v ∧ t = { u with screen := v } := by
  unfold createTabView at hv
  extract_lets x y w n background at hv
  split at hv
  next k s₁ hc =>
  cases hv
  refine ⟨s₁, hc, mapScreen_restyles ?_⟩
  extract_lets s₂ s₃ s₄ s₅
  have hbar : Screen.Restyles (· = h) s₁.screen s₂ := Screen.configure_restyles _ h _
  have hplace : Screen.Restyles (· = h) s₂ s₃ := by
    unfold s₃
    split
    · exact Screen.setPos_restyles _ h _ _
    · exact Screen.Restyles.refl _
  have hsize : Screen.Restyles (· = h) s₃ s₄ := by
    unfold s₄
    split
    · exact Screen.resize_restyles _ h _ _
    · exact Screen.Restyles.refl _
  have hcolor : Screen.Restyles (· = h) s₄ s₅ := Screen.setBackground_restyles _ h _
  refine (hbar.trans hplace).trans ((hsize.trans hcolor).trans ?_)
  split
  · exact Screen.Restyles.refl _
  · exact Screen.applyStyle_restyles _ h _

theorem createTabView_draft (hs : s.WellFormed) (hp : s.Holds parent) {e : Element}
    (hv : s.createTabView e parent = (h, t)) :
    Draft s [(h, (Widget.new .tabView).content)] t := by
  obtain ⟨u, hc, v, hr, rfl⟩ := createTabView_restyles hv
  exact ((Draft.nil (Builds.refl hs.screen)).create hs hp hc).restyleHead (f := fun _ => v) hr

theorem createTab_draft (hs : s.WellFormed) {view : Handle} (hp : s.Holds view) {e : Element}
    (hv : s.createTab e view = (h, t)) : ∃ C, C.kind = .tab ∧ Draft s [(h, C)] t := by
  unfold createTab at hv
  extract_lets title at hv
  split at hv
  next k s₁ hc =>
  cases hv
  have hd := (((Draft.nil (Builds.refl hs.screen)).create hs hp hc).setText title).applyStyles
    ([.bgOpacity 0, .borderWidth 0] ++ allSides.map (.padding · 0))
  rw [mapScreen_mapScreen] at hd
  exact ⟨_, rfl, hd⟩

/-- A new tab is made, and then only titled and styled. -/
theorem createTab_touches {e : Element} {view : Handle} (hv : s.createTab e view = (h, t)) :
    ∃ u, s.create .tab view = (h, u) ∧
      ∃ v, Screen.Touches (· = h) Widget.SameKind u.screen v ∧ t = { u with screen := v } := by
  unfold createTab at hv
  extract_lets title at hv
  split at hv
  next k s₁ hc =>
  cases hv
  refine ⟨s₁, hc, _, ?_, rfl⟩
  have htitled : Screen.Touches (· = h) Widget.SameKind s₁.screen (s₁.screen.setText h title) :=
    Screen.touches_modify (fun _ => rfl) fun _ => rfl
  have hstyled := Screen.Touches.mono (Q := Widget.SameKind)
    (Screen.applyStyles_restyles (s₁.screen.setText h title) h
      ([.bgOpacity 0, .borderWidth 0] ++ allSides.map (.padding · 0)))
    (fun _ hk => hk) fun _ _ hc => Widget.SameContent.sameKind hc
  exact Screen.Touches.trans (fun _ _ _ p q => Eq.trans q p) htitled hstyled

theorem Draft.finishTabs (hd : Draft s ((h, C) :: parts) t) (hk : C.kind = .tabView)
    (hh : C.hidden = false) (e : Element) : Builds s (t.finishTabs e h) := by
  unfold Session.finishTabs
  exact (hd.hideForGood _).register
    (drawn_plain rfl rfl (fun hk => by cases hk) (fun hk => by cases hk) rfl hh (by rw [hk]; rfl)
      rfl rfl)

/-! ## Whole documents -/

theorem buildLeaf_builds (hs : s.WellFormed) (hp : s.Holds parent) (kind : ControlKind)
    (e : Element) : Builds s (s.buildLeaf kind e parent) := by
  cases kind with
  | label => exact buildLabel_builds hs hp e
  | button => exact buildButton_builds hs hp e
  | switch => exact buildSwitch_builds hs hp e
  | slider => exact buildSlider_builds hs hp e
  | input => exact buildInput_builds hs hp e
  | canvas => exact buildCanvas_builds hs hp e
  | image => exact buildImage_builds hs hp e
  | markdown => exact buildMarkdown_builds hs hp e
  | tabs => exact Builds.refl hs.screen
  | page => exact Builds.refl hs.screen

mutual
theorem buildWidget_builds (e : Element) {s : Session} {parent : Handle} (hs : s.WellFormed)
    (hp : s.Holds parent) : Builds s (buildWidget parent e s) := by
  obtain ⟨tag, attrs, text, children, inner⟩ := e
  rw [buildWidget]
  split
  · exact Builds.refl hs.screen
  · split
    next view s₁ hv =>
    have hd := createTabView_draft hs hp hv
    have hb := buildTabs_builds children (hd.builds.wellFormed hs) (hd.holds rfl)
    exact (hd.extend hb).finishTabs rfl rfl _
  · exact buildLeaf_builds hs hp _ _
theorem buildAll_builds (es : List Element) {s : Session} {parent : Handle} (hs : s.WellFormed)
    (hp : s.Holds parent) : Builds s (buildAll parent es s) := by
  cases es with
  | nil =>
    rw [buildAll]
    exact Builds.refl hs.screen
  | cons e es =>
    rw [buildAll]
    have hb := buildWidget_builds e hs hp
    exact hb.trans (buildAll_builds es (hb.wellFormed hs) (hb.holds hp))
theorem buildTabs_builds (es : List Element) {s : Session} {view : Handle} (hs : s.WellFormed)
    (hp : s.Holds view) : Builds s (buildTabs view es s) := by
  cases es with
  | nil =>
    rw [buildTabs]
    exact Builds.refl hs.screen
  | cons e es =>
    obtain ⟨tag, attrs, text, children, inner⟩ := e
    rw [buildTabs]
    split
    · split
      next tab s₁ hv =>
      obtain ⟨C, hC, hd⟩ := createTab_draft hs hp hv
      have hb := buildAll_builds children (hd.builds.wellFormed hs) (hd.holds (by rw [hC]; rfl))
      have hb := hd.builds.trans hb
      exact hb.trans (buildTabs_builds es (hb.wellFormed hs) (hb.holds hp))
    · exact buildTabs_builds es hs hp
end

end Session
end ScreenMarkup
