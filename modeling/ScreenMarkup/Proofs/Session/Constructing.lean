import ScreenMarkup.Proofs.Screen.References
import ScreenMarkup.Proofs.Session.Growth
import ScreenMarkup.Session.Build.Tree

/-!
# What building keeps

A builder makes a widget, changes it, and records its control, all in a few
kinds of steps. Before the control there is an id: the written one, or perhaps
a generated one. Whatever each of these steps keeps, the builders keep, and so
do the recursions over the elements of a document.
-/

set_option autoImplicit false

namespace ScreenMarkup.Session

variable {s t : Session} {h k parent : Handle}

/-- Two relations, of screens and of sessions, that making and changing widgets stays within. -/
structure Shaping (R : Screen → Screen → Prop) (G : Session → Session → Prop) : Prop where
  steps : Screen.Steps R
  trans : ∀ {s t u : Session}, G s t → G t u → G s u
  redraw : ∀ (s : Session) {v : Screen}, R s.screen v → G s { s with screen := v }
  create : ∀ {s t : Session} {kind h parent}, s.create kind parent = (h, t) → G s t
  /-- A widget that was only placed and styled may be deleted again. -/
  discard : ∀ {s t : Session} {kind h parent} {v : Screen}, s.create kind parent = (h, t) →
    Screen.Restyles (· = h) t.screen v → R t.screen v → G s { t with screen := v.delete h }
  keepZIndex : ∀ (s : Session) h z, G s (s.keepZIndex h z)

/-- The steps of building stay within the relations. -/
structure Constructing (R : Screen → Screen → Prop) (G : Session → Session → Prop) : Prop
    extends Shaping R G where
  number : ∀ (s : Session) n, G s { s with autoId := n }
  /-- The control is new, and of a kind that needs to hear nothing. -/
  register : ∀ (s : Session) {c}, c.lastUpdate = none → (∀ i, c.kind.hears i = []) →
    G s (s.register c).2
  /-- A listener stands on a widget of the control, whose kind it serves. -/
  registerWith : ∀ (s : Session) {c : Control} {h} {kinds : List ControlKind}
    {events : List EventKind} {listener : Nat → Listener}, c.Owns h → c.kind ∈ kinds →
    c.lastUpdate = none → c.Listens h events listener →
    (∀ t i, HasControl t i kinds h → t.Serves h (listener i)) →
    G s (s.registerWith c h events listener)

/-- An element gets an id, and goes on with the attributes. Before and after that its widget is made
and changed. -/
inductive Identifies (G : Session → Session → Prop) (kind : ControlKind) (e : Element) (s : Session)
    (a : WidgetAttrs) : Session → Prop
  | intro {s₁ s₂ t : Session} {needed : Bool} (before : G s s₁)
      (id : s₁.withId (WidgetAttrs.ofElement e) kind needed = (a, s₂)) (after : G s₂ t) :
      Identifies G kind e s a t

/-- What a builder of a widget does: there is an id, then at most one control that goes by it. -/
inductive Makes (G : Session → Session → Prop) (kind : ControlKind) (e : Element) (s : Session) :
    Session → Prop
  | refused {a : WidgetAttrs} {t : Session} : Identifies G kind e s a t → Makes G kind e s t
  | mute {a : WidgetAttrs} {t : Session} {c : Control} : Identifies G kind e s a t → c.id = a.id →
      c.lastUpdate = none → (∀ i, c.kind.hears i = []) → Makes G kind e s (t.register c).2
  | heard {a : WidgetAttrs} {t : Session} {c : Control} {h : Handle} {kinds : List ControlKind}
      {events : List EventKind} {listener : Nat → Listener} : Identifies G kind e s a t →
      c.id = a.id → c.Owns h → c.kind ∈ kinds → c.lastUpdate = none →
      c.Listens h events listener → (∀ t i, HasControl t i kinds h → t.Serves h (listener i)) →
      Makes G kind e s (t.registerWith c h events listener)

namespace Shaping

variable {R : Screen → Screen → Prop} {G : Session → Session → Prop} (hG : Shaping R G)

include hG

/-! ## Steps -/

theorem refl (s : Session) : G s s := hG.redraw s (hG.steps.refl s.screen)

theorem ite {c : Prop} [Decidable c] (ht : G s t) : G s (if c then t else s) := by
  split
  · exact ht
  · exact hG.refl s

theorem mapScreen (s : Session) {f : Screen → Screen} (hf : R s.screen (f s.screen)) :
    G s (s.mapScreen f) :=
  hG.redraw s hf

theorem modify (s : Session) (h : Handle) {f : Widget → Widget} (hf : ∀ w, (f w).ties = w.ties) :
    G s (s.mapScreen (·.modify h f)) :=
  hG.mapScreen s (hG.steps.modify s.screen h hf)

theorem align (s : Session) (h : Handle) (a : Align) (shift : Offset) :
    G s (s.mapScreen (·.align h a shift)) :=
  hG.mapScreen s (hG.steps.align s.screen h a shift)

theorem configure (s : Session) (h : Handle) (setting : Setting)
    (hs : ∀ k, setting ≠ .keyboardTarget k) : G s (s.mapScreen (·.configure h setting)) :=
  hG.mapScreen s (hG.steps.configure s.screen h setting hs)

theorem applyInline (s : Session) (h text : Handle) (i : Inline) :
    G s (s.mapScreen (·.applyInline h text i)) :=
  hG.mapScreen s ((hG.steps.styling h).applyInline (hG.steps.styling text) s.screen i)

theorem applyRules (s : Session) (h : Handle) (kind : ControlKind) (a : WidgetAttrs) :
    G s (s.applyRules h kind a) := by
  unfold Session.applyRules
  extract_lets classes
  have hrules := (hG.steps.styling h).applyRules s.screen s.sheet kind.tag a.id classes
    s.config.screen
  split
  next z v he =>
  rw [he] at hrules
  have hruled : G s { s with screen := v } := hG.redraw s hrules
  split
  · exact hG.trans hruled (hG.keepZIndex _ h _)
  · exact hruled

theorem hideForGood (s : Session) (h : Handle) (a : WidgetAttrs) : G s (s.hideForGood h a) :=
  hG.ite (hG.modify s h (f := ({ · with hidden := true })) fun _ => rfl)

theorem place (s : Session) (h : Handle) (e : Element) : G s (s.place h e) := by
  rcases place_cases s h e with he | ⟨a, shift, he⟩ | ⟨x, y, he⟩
  · rw [he]
    exact hG.refl s
  · rw [he]
    exact hG.align s h a shift
  · rw [he]
    exact hG.mapScreen s ((hG.steps.styling h).setPos s.screen x y)

/-- The id comes first. -/
theorem identifies {kind : ControlKind} {e : Element} {a : WidgetAttrs} {needed : Bool}
    {u : Session} (hw : s.withId (WidgetAttrs.ofElement e) kind needed = (a, t)) (hu : G t u) :
    Identifies G kind e s a u :=
  .intro (hG.refl s) hw hu

/-! ## Texts -/

theorem sizeLabel (s : Session) (h : Handle) (e : Element) : G s (s.sizeLabel h e) := by
  unfold Session.sizeLabel
  extract_lets w n
  split
  · refine hG.mapScreen s ?_
    have hsized := hG.steps.resize s.screen h w n
    extract_lets sized
    split
    · exact hG.steps.trans hsized (hG.steps.configure sized h _ (by simp))
    · exact hsized
  · exact hG.refl s

theorem alignLabel (s : Session) (h : Handle) (e : Element) : G s (s.alignLabel h e) := by
  unfold Session.alignLabel
  extract_lets horizontal n
  refine hG.mapScreen s ?_
  extract_lets aligned
  have haligned : R s.screen aligned := hG.steps.ite ((hG.steps.styling h).applyStyle s.screen _)
  exact hG.steps.trans haligned (hG.steps.ite ((hG.steps.styling h).alignText aligned _ n))

theorem buildLabel (s : Session) (e : Element) (parent : Handle) :
    Makes G .label e s (s.buildLabel e parent) := by
  unfold Session.buildLabel
  extract_lets color bgcolor
  split
  next a s₁ hw =>
  extract_lets text
  split
  next h s₂ hc =>
  extract_lets s₃ i s₄ s₅ c
  have hruled : G s₂ s₃ := hG.trans (hG.mapScreen s₂ (hG.steps.setText s₂.screen h text))
    (hG.applyRules _ h _ a)
  have hplaced : G s₃ s₄ := hG.trans (hG.applyInline s₃ h h i) (hG.place _ h e)
  have hdone : G s₄ s₅ := hG.trans (hG.trans (hG.sizeLabel s₄ h e) (hG.alignLabel _ h e))
    (hG.hideForGood _ h a)
  have hbuilt := hG.trans (hG.trans (hG.create hc) hruled) (hG.trans hplaced hdone)
  exact .mute (hG.identifies hw hbuilt) rfl rfl fun _ => rfl

theorem buttonLabel {label : ButtonLabel} {lbl : Option Handle}
    (hl : s.buttonLabel h label = (lbl, t)) : G s t := by
  unfold Session.buttonLabel at hl
  split at hl
  · cases hl
    exact hG.refl s
  · extract_lets text at hl
    split at hl
    next k s₁ hc =>
    extract_lets s₂ s₃ at hl
    have hshown : G s₁ s₂ := hG.mapScreen s₁ <|
      hG.steps.trans (hG.steps.setText s₁.screen k text) (hG.steps.align _ k .center {})
    have haligned : G s₂ s₃ :=
      hG.ite (hG.mapScreen s₂ ((hG.steps.styling k).applyStyle s₂.screen _))
    rw [← (Prod.mk.inj hl).2]
    exact hG.trans (hG.trans (hG.create hc) hshown) haligned

theorem buttonIcon {e : Element} {hasLabel : Bool} {icon : Option Handle}
    (hi : s.buttonIcon h e hasLabel = (icon, t)) : G s t := by
  unfold Session.buttonIcon at hi
  extract_lets src size at hi
  split at hi
  · cases hi
    exact hG.refl s
  · split at hi
    next k s₁ hc =>
    extract_lets path at hi
    cases hi
    refine hG.trans (hG.create hc) (hG.mapScreen s₁ ?_)
    have hsource := hG.steps.configure s₁.screen k (.imageSource path) (by simp)
    exact hG.steps.trans (hG.steps.trans hsource ((hG.steps.styling k).setSize _ size size))
      (hG.steps.align _ k _ {})

theorem buildButton (s : Session) (e : Element) (parent : Handle) :
    Makes G .button e s (s.buildButton e parent) := by
  unfold Session.buildButton
  extract_lets actions label color bgcolor isClickable isHoldable font isCentered
  split
  next a s₁ hw =>
  split
  next button s₂ hc =>
  split
  next lbl s₃ hl =>
  split
  next icon s₄ hi =>
  extract_lets s₅ geometry i s₆ y s₇ s₈ c₀ c
  have hfilled : G s₂ s₄ := hG.trans (hG.buttonLabel hl) (hG.buttonIcon hi)
  have hruled : G s₄ s₅ := hG.applyRules s₄ button _ a
  have hstyled : G s₅ s₆ := hG.applyInline s₅ button _ i
  have hplaced : G s₆ s₇ := hG.ite (hG.align s₆ button .topMid ⟨0, y⟩)
  have hdone : G s₇ s₈ := hG.hideForGood s₇ button a
  have hbuilt := hG.trans (hG.trans (hG.create hc) hfilled)
    (hG.trans (hG.trans hruled hstyled) (hG.trans hplaced hdone))
  exact .heard (hG.identifies hw hbuilt) rfl (.inr rfl) List.mem_cons_self rfl
    (fun _ => .inr ⟨rfl, rfl⟩) fun _ _ hc => hc

theorem buildMarkdown (s : Session) (e : Element) (parent : Handle) :
    Makes G .markdown e s (s.buildMarkdown e parent) := by
  unfold Session.buildMarkdown
  extract_lets isDynamic theme
  split
  next a s₁ hw =>
  extract_lets text
  split
  next h s₂ hc =>
  extract_lets s₃ geometry i s₄ s₅ c₀ c
  have hruled : G s₂ s₃ := hG.applyRules s₂ h _ a
  have hplaced : G s₃ s₄ := hG.trans (hG.applyInline s₃ h h i) (hG.place _ h e)
  have hdone : G s₄ s₅ := hG.trans
    (hG.modify s₄ h (f := (·.setSpans (Markdown.render text theme))) fun _ => rfl)
    (hG.hideForGood _ h a)
  have hbuilt := hG.trans (hG.trans (hG.create hc) hruled) (hG.trans hplaced hdone)
  have hnew : c.id = a.id ∧ c.lastUpdate = none ∧ c.kind = .markdown := by
    unfold c
    split <;> exact ⟨rfl, rfl, rfl⟩
  exact .mute (hG.identifies hw hbuilt) hnew.1 hnew.2.1 fun i => by rw [hnew.2.2]; rfl

/-! ## Bound widgets -/

theorem buildSwitch (s : Session) (e : Element) (parent : Handle) :
    Makes G .switch e s (s.buildSwitch e parent) := by
  unfold Session.buildSwitch
  split
  next a s₁ hw =>
  extract_lets checked
  split
  next h s₂ hc =>
  extract_lets s₃ i s₄
  have hruled : G s₂ s₃ := hG.trans
    (hG.modify s₂ h (f := ({ · with checked := checked })) fun _ => rfl) (hG.applyRules _ h _ a)
  have hdone : G s₃ s₄ := hG.trans (hG.applyInline s₃ h h i) (hG.hideForGood _ h a)
  have hbuilt := hG.trans (hG.trans (hG.create hc) hruled) hdone
  exact .heard (hG.identifies hw hbuilt) rfl (.inl rfl) List.mem_cons_self rfl
    (fun _ => .inl ⟨rfl, by decide, rfl⟩) fun _ _ hc => hc

theorem buildSlider (s : Session) (e : Element) (parent : Handle) :
    Makes G .slider e s (s.buildSlider e parent) := by
  unfold Session.buildSlider
  extract_lets low high
  split
  next a s₁ hw =>
  extract_lets initial
  split
  next h s₂ hc =>
  extract_lets s₃ s₄ i s₅
  have hset : G s₂ s₃ := hG.mapScreen s₂ <|
    hG.steps.trans (hG.steps.trans
      (hG.steps.modify s₂.screen h (f := (·.setRange low high)) fun _ => rfl)
      (hG.steps.modify _ h (f := (·.setValue initial)) fun _ => rfl))
      (hG.steps.resize _ h sliderWidth 0)
  have hruled : G s₃ s₄ := hG.applyRules s₃ h _ a
  have hdone : G s₄ s₅ := hG.trans (hG.applyInline s₄ h h i) (hG.hideForGood _ h a)
  have hbuilt := hG.trans (hG.trans (hG.create hc) hset) (hG.trans hruled hdone)
  exact .heard (hG.identifies hw hbuilt) rfl (.inl rfl) List.mem_cons_self rfl
    (fun _ => .inl ⟨rfl, by decide, rfl⟩) fun _ _ hc => hc

theorem buildInput (s : Session) (e : Element) (parent : Handle) :
    Makes G .input e s (s.buildInput e parent) := by
  unfold Session.buildInput
  split
  next a s₁ hw =>
  extract_lets initial
  split
  next h s₂ hc =>
  extract_lets s₃ s₄ geometry i s₅
  have hset : G s₂ s₃ := by
    refine hG.mapScreen s₂ ?_
    have htext := hG.steps.trans
      (hG.steps.configure s₂.screen h (.placeholder (e.attr "placeholder")) (by simp))
      (hG.steps.setText _ h initial)
    have hflags (v : Screen) := hG.steps.trans
      (hG.steps.configure v h (.password (flag e "password")) (by simp))
      (hG.steps.configure _ h (.oneLine (!flag e "multiline")) (by simp))
    have hlooks (v : Screen) := hG.steps.trans ((hG.steps.styling h).applyStyle v (.bgOpacity 0))
      ((hG.steps.styling h).setSize _ inputWidth inputHeight)
    exact hG.steps.trans (hG.steps.trans htext (hflags _)) (hlooks _)
  have hruled : G s₃ s₄ := hG.applyRules s₃ h _ a
  have hdone : G s₄ s₅ := hG.trans (hG.applyInline s₄ h h i) (hG.hideForGood _ h a)
  have hbuilt := hG.trans (hG.trans (hG.create hc) hset) (hG.trans hruled hdone)
  exact .heard (hG.identifies hw hbuilt) rfl (.inl rfl) List.mem_cons_self rfl
    (fun _ => .inl ⟨rfl, by decide, rfl⟩) fun _ _ hc => hc

/-! ## Pictures -/

theorem buildImage (s : Session) (e : Element) (parent : Handle) :
    Makes G .image e s (s.buildImage e parent) := by
  unfold Session.buildImage
  extract_lets a onclick isCentered
  split
  next h s₁ hc =>
  extract_lets path s₂ geometry i s₃ y s₄ s₅ s₆
  have hruled : G s₁ s₂ := hG.trans (hG.configure s₁ h (.imageSource path) (by simp))
    (hG.applyRules _ h _ a)
  have hstyled : G s₂ s₃ := hG.applyInline s₂ h h i
  have hplaced : G s₃ s₄ := hG.ite (hG.align s₃ h .topMid ⟨0, y⟩)
  have hdone : G s₄ s₅ := hG.hideForGood s₄ h a
  have hbuilt := hG.trans (hG.trans (hG.create hc) hruled)
    (hG.trans (hG.trans hstyled hplaced) hdone)
  split
  · split
    next a' s₇ hw =>
    exact .mute (.intro hbuilt hw (hG.refl s₇)) rfl rfl fun _ => rfl
  · split
    next a' s₇ hw =>
    have hclickable : G s₅ s₆ := hG.configure s₅ h (.clickable true) (by simp)
    exact .heard (.intro (hG.trans hbuilt hclickable) hw (hG.refl s₇)) rfl (.inl rfl)
      (List.mem_cons_of_mem _ List.mem_cons_self) rfl (fun _ => .inr ⟨rfl, rfl⟩) fun _ _ hc => hc

theorem buildCanvas (s : Session) (e : Element) (parent : Handle) :
    Makes G .canvas e s (s.buildCanvas e parent) := by
  unfold Session.buildCanvas
  extract_lets actions w n x y background isTouched
  split
  next a s₁ hw =>
  split
  next h s₂ hc =>
  extract_lets s₃ s₄ c₀
  have hsized : R s₂.screen s₃.screen :=
    hG.steps.trans ((hG.steps.styling h).setPos s₂.screen x y)
      ((hG.steps.styling h).setSize _ w n)
  split
  · have hrestyled : Screen.Restyles (· = h) s₂.screen s₃.screen :=
      (Screen.setPos_restyles s₂.screen h x y).trans (Screen.setSize_restyles _ h w n)
    exact .refused (hG.identifies hw (hG.discard (t := s₂) hc hrestyled hsized))
  · next canvas _ =>
    extract_lets c
    have hdone : G s₃ s₄ := hG.trans
      (hG.modify s₃ h (f := fun w => { w with invalidations := w.invalidations + 1 }) fun _ => rfl)
      (hG.hideForGood _ h a)
    have hbuilt := hG.trans (hG.create hc) (hG.trans (hG.redraw s₂ hsized) hdone)
    split
    · have hclickable := hG.trans hbuilt (hG.configure s₄ h (.clickable true) (by simp))
      exact .heard (hG.identifies hw hclickable) rfl (.inl rfl) List.mem_cons_self rfl
        (fun _ => .inr ⟨rfl, rfl⟩) fun _ _ hc => hc
    · exact .mute (hG.identifies hw hbuilt) rfl rfl fun _ => rfl

/-! ## Containers -/

theorem createTabView {e : Element} (hv : s.createTabView e parent = (h, t)) : G s t := by
  unfold Session.createTabView at hv
  extract_lets x y w n background at hv
  split at hv
  next k s₁ hc =>
  cases hv
  refine hG.trans (hG.create hc) (hG.mapScreen s₁ ?_)
  extract_lets v₁ v₂ v₃ v₄
  have hbar : R s₁.screen v₁ := hG.steps.configure s₁.screen h (.tabBarHeight _) (by simp)
  have hplace : R v₁ v₂ := hG.steps.ite ((hG.steps.styling h).setPos v₁ _ _)
  have hsize : R v₂ v₃ := hG.steps.ite (hG.steps.resize v₂ h _ _)
  have hcolor : R v₃ v₄ := (hG.steps.styling h).applyStyles v₃ _
  refine hG.steps.trans (hG.steps.trans hbar hplace)
    (hG.steps.trans (hG.steps.trans hsize hcolor) ?_)
  split
  · exact hG.steps.refl v₄
  · exact (hG.steps.styling h).applyStyle v₄ _

theorem createTab {e : Element} (hv : s.createTab e parent = (h, t)) : G s t := by
  unfold Session.createTab at hv
  extract_lets title at hv
  split at hv
  next k s₁ hc =>
  cases hv
  exact hG.trans (hG.create hc) (hG.mapScreen s₁ <|
    hG.steps.trans (hG.steps.setText s₁.screen h title) ((hG.steps.styling h).applyStyles _ _))

/-- The kinds whose widgets contain no others, and that a builder makes. -/
theorem buildLeaf (s : Session) {kind : ControlKind} (e : Element) (parent : Handle)
    (ht : kind ≠ .tabs) (hp : kind ≠ .page) :
    Makes G kind e s (s.buildLeaf kind e parent) := by
  cases kind with
  | label => exact hG.buildLabel s e parent
  | button => exact hG.buildButton s e parent
  | switch => exact hG.buildSwitch s e parent
  | slider => exact hG.buildSlider s e parent
  | input => exact hG.buildInput s e parent
  | canvas => exact hG.buildCanvas s e parent
  | image => exact hG.buildImage s e parent
  | markdown => exact hG.buildMarkdown s e parent
  | tabs => exact absurd rfl ht
  | page => exact absurd rfl hp

end Shaping

namespace Constructing

variable {R : Screen → Screen → Prop} {G : Session → Session → Prop} (hG : Constructing R G)

include hG

/-! ## Whole documents -/

theorem withId {a a' : WidgetAttrs} {kind : ControlKind} {needed : Bool}
    (hw : s.withId a kind needed = (a', t)) : G s t := by
  unfold Session.withId at hw
  split at hw
  · cases hw
    exact hG.number s (s.autoId + 1)
  · cases hw
    exact hG.refl s

theorem of_identifies {kind : ControlKind} {e : Element} {a : WidgetAttrs}
    (ht : Identifies G kind e s a t) : G s t := by
  cases ht with
  | intro before id after => exact hG.trans (hG.trans before (hG.withId id)) after

theorem of_makes {kind : ControlKind} {e : Element} (ht : Makes G kind e s t) : G s t := by
  cases ht with
  | refused hn => exact hG.of_identifies hn
  | mute hn _ hu hm => exact hG.trans (hG.of_identifies hn) (hG.register _ hu hm)
  | heard hn _ ho hk hu hl hs =>
    exact hG.trans (hG.of_identifies hn) (hG.registerWith _ ho hk hu hl hs)

theorem finishTabs (s : Session) (e : Element) (view : Handle) : G s (s.finishTabs e view) :=
  hG.trans (hG.hideForGood s view _) (hG.register _ rfl fun _ => rfl)

theorem buildLeaf (s : Session) (kind : ControlKind) (e : Element) (parent : Handle) :
    G s (s.buildLeaf kind e parent) := by
  by_cases ht : kind = .tabs
  · rw [ht]
    exact hG.refl s
  · by_cases hp : kind = .page
    · rw [hp]
      exact hG.refl s
    · exact hG.of_makes (hG.toShaping.buildLeaf s e parent ht hp)

mutual
theorem buildWidget (parent : Handle) (e : Element) (s : Session) :
    G s (Session.buildWidget parent e s) := by
  obtain ⟨tag, attrs, text, children, inner⟩ := e
  rw [Session.buildWidget]
  split
  · exact hG.refl s
  · split
    next view s₁ hv =>
    exact hG.trans (hG.trans (hG.createTabView hv) (buildTabs view children s₁))
      (hG.finishTabs _ _ view)
  · exact hG.buildLeaf s _ _ parent
theorem buildAll (parent : Handle) (es : List Element) (s : Session) :
    G s (Session.buildAll parent es s) := by
  cases es with
  | nil =>
    rw [Session.buildAll]
    exact hG.refl s
  | cons e es =>
    rw [Session.buildAll]
    exact hG.trans (buildWidget parent e s) (buildAll parent es _)
theorem buildTabs (view : Handle) (es : List Element) (s : Session) :
    G s (Session.buildTabs view es s) := by
  cases es with
  | nil =>
    rw [Session.buildTabs]
    exact hG.refl s
  | cons e es =>
    obtain ⟨tag, attrs, text, children, inner⟩ := e
    rw [Session.buildTabs]
    split
    · split
      next tab s₁ hv =>
      exact hG.trans (hG.trans (hG.createTab hv) (buildAll tab children s₁))
        (buildTabs view es _)
    · exact buildTabs view es s
end

end Constructing
end ScreenMarkup.Session
