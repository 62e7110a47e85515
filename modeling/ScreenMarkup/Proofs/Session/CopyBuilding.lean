import ScreenMarkup.Proofs.Session.Copy
import ScreenMarkup.Session.Build.Tree

/-!
# Building on copies

Each builder of a widget does on a copy what it does on the original, with
renamed handles, and so does the recursion over the elements of a document.
-/

set_option autoImplicit false

namespace ScreenMarkup.Session.Copies

variable {ρ : Renaming} {s t : Session} {h : Handle}

theorem applyInline (hc : Copies ρ s t) (h text : Handle) (i : Inline) :
    Copies ρ (s.mapScreen (·.applyInline h text i))
      (t.mapScreen (·.applyInline (ρ h) (ρ text) i)) :=
  hc.mapScreen fun hc => hc.applyInline h text i

/-- An image or a button may be centered at the top of its parent. -/
theorem alignIf (hc : Copies ρ s t) {c : Prop} [Decidable c] (h : Handle) (a : Align)
    (shift : Offset) :
    Copies ρ (if c then s.mapScreen (·.align h a shift) else s)
      (if c then t.mapScreen (·.align (ρ h) a shift) else t) :=
  (hc.mapScreen fun hc => hc.align h a shift).ite hc

/-! ## Texts -/

theorem sizeLabel (hc : Copies ρ s t) (h : Handle) (e : Element) :
    Copies ρ (s.sizeLabel h e) (t.sizeLabel (ρ h) e) := by
  simp only [Session.sizeLabel, hc.across, hc.down]
  refine Copies.ite (hc.mapScreen fun hc => ?_) hc
  have hsize := hc.resize h (s.across e "w" 0) (s.down e "h" 0)
  exact (hsize.configure h (.longMode _) rfl).ite hsize

theorem alignLabel (hc : Copies ρ s t) (h : Handle) (e : Element) :
    Copies ρ (s.alignLabel h e) (t.alignLabel (ρ h) e) := by
  simp only [Session.alignLabel, hc.down]
  refine hc.mapScreen fun hc => ?_
  have halign := Screen.Copies.ite (c := (Align.splitPair (e.attr "text-align")).1 ≠ "left")
    (hc.applyStyle h (.textAlign (TextAlign.ofKeyword (Align.splitPair (e.attr "text-align")).1)))
    hc
  exact (halign.alignText h (labelValign e) _).ite halign

theorem buildLabel (hc : Copies ρ s t) (e : Element) (parent : Handle) :
    Copies ρ (s.buildLabel e parent) (t.buildLabel e (ρ parent)) := by
  obtain ⟨a, s₁, t₁, hs₁, ht₁, hc₁⟩ := hc.withId (WidgetAttrs.ofElement e) .label
    (Template.isDynamic e.text || Template.isDynamic (e.attr "color") ||
      Template.isDynamic (e.attr "bgcolor"))
  obtain ⟨h, s₂, t₂, hs₂, ht₂, hc₂⟩ := hc₁.create .label parent
  have hc₃ := (hc₂.mapScreen fun hc => hc.setText h (s₁.shown e.text)).applyRules h .label a
  simp only [Session.buildLabel, hs₁, ht₁, hs₂, ht₂, hc₁.shown, hc₃.writtenColor]
  exact (((((hc₃.applyInline h h _).place h e).sizeLabel h e).alignLabel h e).hideForGood h
    a).register_snd
    (withColorBinds { a.control .label h with template := Control.dynamic? e.text } _ _)

/-! ## Buttons -/

theorem buttonLabel (hc : Copies ρ s t) (button : Handle) (label : ButtonLabel) :
    ∃ l s' t', s.buttonLabel button label = (l, s') ∧
      t.buttonLabel (ρ button) label = (l.map ρ, t') ∧ Copies ρ s' t' := by
  obtain ⟨h, s₁, t₁, hs₁, ht₁, hc₁⟩ := hc.create .label button
  simp only [Session.buttonLabel, hc.shown, hs₁, ht₁]
  split
  · exact ⟨_, _, _, rfl, rfl, hc⟩
  · have hc₂ := hc₁.mapScreen fun hc => (hc.setText h (s.shown label.text)).align h .center {}
    exact ⟨_, _, _, rfl, rfl, (hc₂.mapScreen fun hc => hc.applyStyle h _).ite hc₂⟩

theorem buttonIcon (hc : Copies ρ s t) (button : Handle) (e : Element) (hasLabel : Bool) :
    ∃ i s' t', s.buttonIcon button e hasLabel = (i, s') ∧
      t.buttonIcon (ρ button) e hasLabel = (i.map ρ, t') ∧ Copies ρ s' t' := by
  obtain ⟨h, s₁, t₁, hs₁, ht₁, hc₁⟩ := hc.create .image button
  simp only [Session.buttonIcon, hs₁, ht₁, hc₁.resourcePath]
  split
  · exact ⟨_, _, _, rfl, rfl, hc⟩
  · exact ⟨_, _, _, rfl, rfl, hc₁.mapScreen fun hc =>
      ((hc.configure h (.imageSource _) rfl).setSize h _ _).align h _ {}⟩

theorem buildButton (hc : Copies ρ s t) (e : Element) (parent : Handle) :
    Copies ρ (s.buildButton e parent) (t.buildButton e (ρ parent)) := by
  unfold Session.buildButton
  extract_lets actions label color bgcolor isClickable isHoldable font isCentered
  obtain ⟨a, s₁, t₁, hs₁, ht₁, hc₁⟩ := hc.withId (WidgetAttrs.ofElement e) .button
    (Template.isDynamic label.text || isClickable || isHoldable || Template.isDynamic color ||
      Template.isDynamic bgcolor)
  obtain ⟨b, s₂, t₂, hs₂, ht₂, hc₂⟩ := hc₁.create .button parent
  obtain ⟨l, s₃, t₃, hs₃, ht₃, hc₃⟩ := hc₂.buttonLabel b label
  obtain ⟨i, s₄, t₄, hs₄, ht₄, hc₄⟩ := hc₃.buttonIcon b e l.isSome
  have hc₅ := hc₄.applyRules b .button a
  have hobj : ((l.map ρ).or (i.map ρ)).getD (ρ b) = ρ ((l.or i).getD b) := by
    cases l <;> cases i <;> rfl
  have htext : (l.map ρ).getD (ρ b) = ρ (l.getD b) := by cases l <;> rfl
  simp only [hs₁, ht₁, hs₂, ht₂, hs₃, ht₃, Option.isSome_map, hs₄, ht₄, hobj, htext,
    hc₅.writtenPlace, hc₅.writtenColor, (hc₅.applyInline b (l.getD b) _).down]
  exact (((hc₅.applyInline b (l.getD b) _).alignIf b .topMid _).hideForGood b a).registerWith
    (withColorBinds { a.control .button ((l.or i).getD b) with
      outer := some b
      template := if l.isSome then Control.dynamic? label.text else none
      actions := actions } color bgcolor) b _ .click

theorem buildMarkdown (hc : Copies ρ s t) (e : Element) (parent : Handle) :
    Copies ρ (s.buildMarkdown e parent) (t.buildMarkdown e (ρ parent)) := by
  obtain ⟨a, s₁, t₁, hs₁, ht₁, hc₁⟩ := hc.withId (WidgetAttrs.ofElement e) .markdown
    (Template.isDynamic e.text)
  obtain ⟨h, s₂, t₂, hs₂, ht₂, hc₂⟩ := hc₁.create .spanGroup parent
  have hc₃ := hc₂.applyRules h .markdown a
  simp only [Session.buildMarkdown, hs₁, ht₁, hs₂, ht₂, hc₁.shown, hc₃.writtenPlace,
    hc₃.writtenColor]
  have hc₄ (i : Inline) := (((hc₃.applyInline h h i).place h e).mapScreen fun hc =>
    hc.setSpans h (Markdown.render (s₁.shown e.text) (themeOf e))).hideForGood h a
  split
  · exact (hc₄ _).register_snd
      { a.control .markdown h with template := some e.text, theme := some (themeOf e) }
  · exact (hc₄ _).register_snd (a.control .markdown h)

/-! ## Bound widgets -/

theorem boundText (hc : Copies ρ s t) (bind : String) : t.boundText bind = s.boundText bind := by
  simp only [Session.boundText, hc.text]

theorem withBoundId (hc : Copies ρ s t) (e : Element) (kind : ControlKind) :
    ∃ a s' t', s.withBoundId e kind = (a, s') ∧ t.withBoundId e kind = (a, t') ∧ Copies ρ s' t' :=
  hc.withId _ kind _

theorem buildSwitch (hc : Copies ρ s t) (e : Element) (parent : Handle) :
    Copies ρ (s.buildSwitch e parent) (t.buildSwitch e (ρ parent)) := by
  obtain ⟨a, s₁, t₁, hs₁, ht₁, hc₁⟩ := hc.withBoundId e .switch
  obtain ⟨h, s₂, t₂, hs₂, ht₂, hc₂⟩ := hc₁.create .switch parent
  have hc₃ := (hc₂.mapScreen fun hc => hc.setChecked h
    (readBool (s₁.boundText (e.attr "bind")))).applyRules h .switch a
  simp only [Session.buildSwitch, hs₁, ht₁, hs₂, ht₂, hc₁.boundText, hc₃.writtenPlace]
  exact ((hc₃.applyInline h h _).hideForGood h a).registerWith
    (boundControl a .switch h e) h _ .switch

theorem buildSlider (hc : Copies ρ s t) (e : Element) (parent : Handle) :
    Copies ρ (s.buildSlider e parent) (t.buildSlider e (ρ parent)) := by
  obtain ⟨a, s₁, t₁, hs₁, ht₁, hc₁⟩ := hc.withBoundId e .slider
  obtain ⟨h, s₂, t₂, hs₂, ht₂, hc₂⟩ := hc₁.create .slider parent
  have hc₃ := (hc₂.mapScreen fun hc =>
    ((hc.setRange h (e.attrInt "min" sliderLow) (e.attrInt "max" sliderHigh)).setValue h
      (Numeric.leadingInt (s₁.boundText (e.attr "bind")).toList)).resize h sliderWidth 0).applyRules
        h .slider a
  simp only [Session.buildSlider, hs₁, ht₁, hs₂, ht₂, hc₁.boundText, hc₃.writtenPlace]
  exact ((hc₃.applyInline h h _).hideForGood h a).registerWith
    (boundControl a .slider h e) h _ .slider

theorem buildInput (hc : Copies ρ s t) (e : Element) (parent : Handle) :
    Copies ρ (s.buildInput e parent) (t.buildInput e (ρ parent)) := by
  obtain ⟨a, s₁, t₁, hs₁, ht₁, hc₁⟩ := hc.withBoundId e .input
  obtain ⟨h, s₂, t₂, hs₂, ht₂, hc₂⟩ := hc₁.create .textArea parent
  have hc₃ := (hc₂.mapScreen fun hc =>
    (((((hc.configure h (.placeholder (e.attr "placeholder")) rfl).setText h
      (s₁.boundText (e.attr "bind"))).configure h (.password (flag e "password")) rfl).configure h
        (.oneLine (!flag e "multiline")) rfl).applyStyle h (.bgOpacity 0)).setSize h inputWidth
          inputHeight).applyRules h .input a
  simp only [Session.buildInput, hs₁, ht₁, hs₂, ht₂, hc₁.boundText, hc₃.writtenPlace,
    hc₃.writtenColor]
  exact ((hc₃.applyInline h h _).hideForGood h a).registerWith (boundControl a .input h e) h _
    .input

/-! ## Pictures -/

theorem buildImage (hc : Copies ρ s t) (e : Element) (parent : Handle) :
    Copies ρ (s.buildImage e parent) (t.buildImage e (ρ parent)) := by
  unfold Session.buildImage
  extract_lets a onclick isCentered
  obtain ⟨h, s₁, t₁, hs₁, ht₁, hc₁⟩ := hc.create .image parent
  have hc₂ := (hc₁.mapScreen fun hc => hc.configure h
    (.imageSource (s₁.resourcePath (e.attr "src"))) rfl).applyRules h .image a
  simp only [hs₁, ht₁, hc₁.resourcePath, hc₂.writtenPlace, (hc₂.applyInline h h _).down]
  have hc₃ (i : Inline) (y : Int) :=
    ((hc₂.applyInline h h i).alignIf (c := isCentered) h .topMid ⟨0, y⟩).hideForGood h a
  split
  · obtain ⟨a', s₂, t₂, hs₂, ht₂, hc₄⟩ := (hc₃ _ _).withId a .image false
    rw [hs₂, ht₂]
    exact hc₄.register_snd (a'.control .image h)
  · obtain ⟨a', s₂, t₂, hs₂, ht₂, hc₄⟩ := ((hc₃ _ _).mapScreen fun hc =>
      hc.configure h (.clickable true) rfl).withId a .image true
    rw [hs₂, ht₂]
    exact hc₄.registerWith { a'.control .image h with actions := { onclick := onclick } } h _ .click

theorem buildCanvas (hc : Copies ρ s t) (e : Element) (parent : Handle) :
    Copies ρ (s.buildCanvas e parent) (t.buildCanvas e (ρ parent)) := by
  unfold Session.buildCanvas
  rw [hc.across, hc.down, hc.across, hc.down]
  extract_lets actions w n x y background isTouched
  obtain ⟨a, s₁, t₁, hs₁, ht₁, hc₁⟩ := hc.withId (WidgetAttrs.ofElement e) .canvas true
  obtain ⟨h, s₂, t₂, hs₂, ht₂, hc₂⟩ := hc₁.create .canvas parent
  have hc₃ := hc₂.mapScreen fun hc => (hc.setPos h x y).setSize h w n
  simp only [hs₁, ht₁, hs₂, ht₂, hc₃.config]
  cases Canvas.make w n background _ with
  | error _ => exact hc₃.mapScreen fun hc => hc.delete h
  | ok canvas =>
    have hc₄ := (hc₃.mapScreen fun hc => hc.invalidate h).hideForGood h a
    have hc₅ := hc₄.mapScreen fun hc => hc.configure h (.clickable true) rfl
    simp only
    split
    · exact hc₅.registerWith
        { a.control .canvas h with
          classTemplate := none, actions := actions, canvas := some canvas } h _ .canvas
    · exact hc₄.register_snd
        { a.control .canvas h with
          classTemplate := none, actions := actions, canvas := some canvas }

/-! ## Tabs -/

theorem createTabView (hc : Copies ρ s t) (e : Element) (parent : Handle) :
    ∃ h s' t', s.createTabView e parent = (h, s') ∧ t.createTabView e (ρ parent) = (ρ h, t') ∧
      Copies ρ s' t' := by
  obtain ⟨h, s₁, t₁, hs₁, ht₁, hc₁⟩ := hc.create .tabView parent
  simp only [Session.createTabView, hc.across, hc.down, hs₁, ht₁]
  refine ⟨_, _, _, rfl, rfl, hc₁.mapScreen fun hc => ?_⟩
  have hbar := hc.configure h (.tabBarHeight (e.attrInt "barh" tabBarHeight)) rfl
  have hplace := Screen.Copies.ite (c := s.across e "x" 0 ≠ 0 ∨ s.down e "y" 0 ≠ 0)
    (hbar.setPos h (s.across e "x" 0) (s.down e "y" 0)) hbar
  have hsize := Screen.Copies.ite (c := 0 < s.across e "w" 0 ∨ 0 < s.down e "h" 0)
    (hplace.resize h (max (s.across e "w" 0) 0) (max (s.down e "h" 0) 0)) hplace
  have hback := hsize.setBackground h
    (if e.attr "bgcolor" = "" then 0 else Color.ofAttribute (e.attr "bgcolor"))
  exact hback.ite (hback.applyStyle h _)

theorem createTab (hc : Copies ρ s t) (tab : Element) (view : Handle) :
    ∃ h s' t', s.createTab tab view = (h, s') ∧ t.createTab tab (ρ view) = (ρ h, t') ∧
      Copies ρ s' t' := by
  obtain ⟨h, s₁, t₁, hs₁, ht₁, hc₁⟩ := hc.create .tab view
  simp only [Session.createTab, hs₁, ht₁]
  exact ⟨_, _, _, rfl, rfl, hc₁.mapScreen fun hc => (hc.setText h _).applyStyles h _⟩

theorem finishTabs (hc : Copies ρ s t) (e : Element) (view : Handle) :
    Copies ρ (s.finishTabs e view) (t.finishTabs e (ρ view)) :=
  (hc.hideForGood view (WidgetAttrs.ofElement e)).register_snd
    { (WidgetAttrs.ofElement e).control .tabs view with classTemplate := none }

/-! ## Whole documents -/

theorem buildLeaf (hc : Copies ρ s t) (kind : ControlKind) (e : Element) (parent : Handle) :
    Copies ρ (s.buildLeaf kind e parent) (t.buildLeaf kind e (ρ parent)) := by
  cases kind with
  | label => exact hc.buildLabel e parent
  | button => exact hc.buildButton e parent
  | switch => exact hc.buildSwitch e parent
  | slider => exact hc.buildSlider e parent
  | input => exact hc.buildInput e parent
  | canvas => exact hc.buildCanvas e parent
  | image => exact hc.buildImage e parent
  | markdown => exact hc.buildMarkdown e parent
  | tabs => exact hc
  | page => exact hc

mutual
theorem buildWidget (e : Element) {s t : Session} {parent : Handle} (hc : Copies ρ s t) :
    Copies ρ (Session.buildWidget parent e s) (Session.buildWidget (ρ parent) e t) := by
  obtain ⟨tag, attrs, text, children, inner⟩ := e
  rw [Session.buildWidget, Session.buildWidget]
  split
  · exact hc
  · obtain ⟨view, s₁, t₁, hs, ht, hc₁⟩ :=
      hc.createTabView ⟨tag, attrs, text, children, inner⟩ parent
    simp only [hs, ht]
    exact (buildTabs children hc₁).finishTabs _ view
  · exact hc.buildLeaf _ _ parent
theorem buildAll (es : List Element) {s t : Session} {parent : Handle} (hc : Copies ρ s t) :
    Copies ρ (Session.buildAll parent es s) (Session.buildAll (ρ parent) es t) := by
  cases es with
  | nil =>
    rw [Session.buildAll, Session.buildAll]
    exact hc
  | cons e es =>
    rw [Session.buildAll, Session.buildAll]
    exact buildAll es (buildWidget e hc)
theorem buildTabs (es : List Element) {s t : Session} {view : Handle} (hc : Copies ρ s t) :
    Copies ρ (Session.buildTabs view es s) (Session.buildTabs (ρ view) es t) := by
  cases es with
  | nil =>
    rw [Session.buildTabs, Session.buildTabs]
    exact hc
  | cons e es =>
    obtain ⟨tag, attrs, text, children, inner⟩ := e
    rw [Session.buildTabs, Session.buildTabs]
    split
    · obtain ⟨tab, s₁, t₁, hs, ht, hc₁⟩ := hc.createTab ⟨tag, attrs, text, children, inner⟩ view
      simp only [hs, ht]
      exact buildTabs es (buildAll children hc₁)
    · exact buildTabs es hc
end

end ScreenMarkup.Session.Copies
