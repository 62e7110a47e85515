import ScreenMarkup.Proofs.Session.PlacementSteps

/-!
# Building what is placed

Every builder of an element that rules and inline attributes style leaves its
placement standing, and so do the builders of all that comes after it in the
document.
-/

set_option autoImplicit false

namespace ScreenMarkup.Session

open Screen (SamePaint Painted)
open Placed (Made Drafted Stands Joins Covers)

variable {s t u : Session} {h parent : Handle} {p : Placed} {c : Control} {e : Element}
  {a a' : WidgetAttrs} {kind : ControlKind} {needed : Bool}

/-- The handle names a widget that may contain others, and is no indicator. -/
def Hosts (s : Session) (h : Handle) : Prop :=
  ∃ k, s.screen.kind? h = some k ∧ k.isContainer = true ∧ k ≠ .indicator

theorem Hosts.holds (hp : s.Hosts h) : s.Holds h := by
  obtain ⟨k, hk, hc, -⟩ := hp
  exact ⟨k, hk, hc⟩

theorem Hosts.retain (hp : s.Hosts h) (hr : s.screen.Retains t.screen) : t.Hosts h := by
  obtain ⟨k, hk, hc, hn⟩ := hp
  exact ⟨k, hr.kind h k hk, hc, hn⟩

theorem Builds.hosts (hb : Builds s t) (hp : s.Hosts h) : t.Hosts h :=
  hp.retain hb.screen.retains

/-! ## Making the widgets -/

theorem withId_screen (hw : s.withId a kind needed = (a', t)) :
    t.screen = s.screen ∧ t.controls = s.controls ∧ t.store = s.store := by
  unfold withId at hw
  split at hw <;> cases hw <;> exact ⟨rfl, rfl, rfl⟩

/-- Only an element that needs no id and has no bound classes stays without one. -/
theorem withId_bound (hw : s.withId a kind needed = (a', t)) :
    a'.classes = a.classes ∧ (a'.id = "" → needed = false ∧ a.hasBoundClasses = false) := by
  unfold withId at hw
  split at hw
  · cases hw
    refine ⟨rfl, fun hid => ?_⟩
    cases kind <;> simp [ControlKind.idStem] at hid
  · next hnone =>
    cases hw
    refine ⟨rfl, fun hid => ?_⟩
    simp only [hid, decide_true, Bool.true_and, Bool.or_eq_true, not_or, Bool.not_eq_true] at hnone
    exact hnone.1

theorem drafted_create (kind : ControlKind) (e : Element) (hs : s.WellFormed)
    (hp : s.Hosts parent) (hw : s.withId a kind needed = (a', t))
    (hc : t.create kind.widget parent = (h, u)) :
    (⟨kind, e, h, h⟩ : Placed).Drafted s u := by
  obtain ⟨hscreen, hcontrols, hstore⟩ := withId_screen hw
  rw [create_eq, hscreen] at hc
  cases hc
  obtain ⟨k, hk, -, hn⟩ := hp
  have hupholds := Screen.upholds_create s.screen kind.widget parent hs.screen.toSound
  have hkind := hs.screen.toSound.kind?_create kind.widget parent
  have hnew := hs.screen.create_fresh kind.widget parent
  exact
    { sound := hs.screen.toSound.create kind.widget parent
      made :=
        { outer := (hkind _).trans (if_pos rfl)
          around := ⟨parent, k,
            hs.screen.toSound.parent?_create kind.widget (Screen.isLive_of_kind? hk),
            hupholds.2 _ _ hk, hn⟩
          inner := .inl rfl }
      covers := fun k _ hk _ => by
        rw [hkind] at hk
        split at hk
        · next he => exact .inr ⟨_, List.mem_singleton_self _, .inl he⟩
        · exact .inl hk
      owned := fun c hc k ho => hupholds.1.live k ((hs.fits c (hcontrols ▸ hc)).live ho)
      unowned := fun c hc => by
        have hfree := hs.unclaimed hnew c (hcontrols ▸ hc)
        exact ⟨hfree, hfree⟩
      store := hstore }

theorem placeOf_eq (kind : ControlKind) (hw : s.withId a kind needed = (a', t))
    (hc : t.create kind.widget parent = (h, u)) (hk : kind ≠ .button) :
    s.placeOf kind e parent = ⟨kind, e, h, h⟩ := by
  obtain ⟨hscreen, -⟩ := withId_screen hw
  rw [create_eq, hscreen] at hc
  cases hc
  unfold placeOf
  simp [create_eq, hk]

/-- The label of a button is made inside of it. -/
theorem drafted_createLabel {b l : Handle} (hd : (⟨.button, e, b, b⟩ : Placed).Drafted s t)
    (htext : (ButtonLabel.ofElement e).text ≠ "") (hc : t.create .label b = (l, u)) :
    (⟨.button, e, b, l⟩ : Placed).Drafted s u := by
  rw [create_eq] at hc
  cases hc
  have hupholds := Screen.upholds_create t.screen .label b
  have hkind := hd.sound.kind?_create .label b
  have hmade := hd.made.carry hd.sound hupholds
  have hnew := hd.sound.create_fresh .label b
  exact
    { sound := hd.sound.create .label b
      made :=
        { outer := hmade.outer
          around := hmade.around
          inner := by
            refine .inr ⟨rfl, by simp [Placed.showsText, Placed.label, htext],
              (hkind _).trans (if_pos rfl), hd.sound.parent?_create .label hd.made.live.1⟩ }
      covers := fun k _ hk hn => by
        rw [hkind] at hk
        split at hk
        · next he => exact .inr ⟨_, List.mem_singleton_self _, .inr he⟩
        · refine (hd.covers k _ hk hn).imp_right fun ⟨p, hp, ho⟩ => ?_
          rw [List.mem_singleton.mp hp] at ho
          exact ⟨_, List.mem_singleton_self _, .inl (ho.elim id id)⟩
      owned := fun c hc k ho => (hupholds hd.sound).1.live k (hd.owned c hc k ho)
      unowned := fun c hc => by
        refine ⟨(hd.unowned c hc).1, fun ho => ?_⟩
        have hl := hd.owned c hc _ ho
        rw [Screen.isLive, hnew] at hl
        cases hl
      store := hd.store }

theorem drafted_buttonLabel {b : Handle} (hd : (⟨.button, e, b, b⟩ : Placed).Drafted s t)
    {lbl : Option Handle} (hl : t.buttonLabel b (ButtonLabel.ofElement e) = (lbl, u)) :
    (⟨.button, e, b, lbl.getD b⟩ : Placed).Drafted s u ∧
      lbl = if (ButtonLabel.ofElement e).text = "" then none else some (t.create .label b).1 := by
  unfold Session.buttonLabel at hl
  split at hl
  · next hnone =>
    cases hl
    exact ⟨hd, by rw [if_pos hnone]⟩
  · next hsome =>
    extract_lets text at hl
    split at hl
    next l s₁ hc =>
    extract_lets s₂ s₃ at hl
    have hdraft := drafted_createLabel hd hsome hc
    have hshown : Carries s₁ s₂ := mapScreen_carries s₁
      ((Screen.carries_setText _ l text).trans (Screen.carries_align _ l _ _))
    have haligned : Carries s₂ s₃ := by
      unfold s₃
      split
      · exact mapScreen_carries s₂ ((Screen.carries_styling l).applyStyle s₂.screen _)
      · exact Carries.refl s₂
    obtain ⟨rfl, hu⟩ := Prod.mk.inj hl
    rw [← hu, if_neg hsome, hc]
    exact ⟨(hdraft.carry hshown).carry haligned, rfl⟩

theorem isSome_buttonLabel {b : Handle} {lbl : Option Handle}
    (hl : lbl = if (ButtonLabel.ofElement e).text = "" then none else some h) :
    lbl.isSome = (⟨.button, e, b, lbl.getD b⟩ : Placed).showsText := by
  rw [hl]
  by_cases htext : (ButtonLabel.ofElement e).text = "" <;>
    simp [Placed.showsText, Placed.label, htext]

theorem placeOf_button {b : Handle} {lbl : Option Handle}
    (hw : s.withId a kind needed = (a', t)) (hc : t.create .button parent = (b, u))
    (hl : lbl = if (ButtonLabel.ofElement e).text = "" then none
      else some (u.create .label b).1) :
    s.placeOf .button e parent = ⟨.button, e, b, lbl.getD b⟩ := by
  obtain ⟨hscreen, -⟩ := withId_screen hw
  rw [create_eq, hscreen] at hc
  cases hc
  rw [hl]
  unfold placeOf
  by_cases htext : (ButtonLabel.ofElement e).text = "" <;>
    simp [create_eq, ControlKind.widget, htext]

theorem buttonIcon_carries {b : Handle} {hasLabel : Bool} {icon : Option Handle}
    (hi : s.buttonIcon b e hasLabel = (icon, t)) : Carries s t := by
  unfold buttonIcon at hi
  extract_lets src size at hi
  split at hi
  · cases hi
    exact Carries.refl s
  · split at hi
    next k s₁ hc =>
    extract_lets path at hi
    cases hi
    exact (create_carries rfl hc).trans (mapScreen_carries s₁
      (((Screen.carries_configure _ k _).trans ((Screen.carries_styling k).setSize _ _ _)).trans
        (Screen.carries_align _ k _ _)))

/-- Inline attributes paint a draft. -/
theorem drafted_applyInline (hd : p.Drafted s t) {i : Inline}
    (hcolor : i.color = (p.inline t).color) (hbgcolor : i.bgcolor = (p.inline t).bgcolor)
    (hfont : i.font = (p.inline t).font) (hradius : i.radius = (p.inline t).radius) :
    let u := t.mapScreen (·.applyInline p.outer p.inner i)
    p.Drafted s u ∧ u.screen.Painted p.outer p.inner (p.inline s) := by
  intro u
  obtain ⟨houter, hinner⟩ := hd.made.live
  have hpaint := Screen.painted_applyInline houter hinner i
  rw [← p.inline_congr hd.store]
  refine ⟨hd.carry (mapScreen_carries t ((Screen.carries_styling p.outer).applyInline
    (Screen.carries_styling p.inner) t.screen i)), ?_⟩
  exact ⟨hcolor ▸ hpaint.color, hbgcolor ▸ hpaint.bgcolor, hradius ▸ hpaint.radius,
    hfont ▸ hpaint.font⟩

theorem isBound_eq_false (hid : a'.id = "") (hw : s.withId a kind needed = (a', t))
    (ha : a.hasBoundClasses = Template.isDynamic p.classes)
    (hn : needed = false → p.kind.bindsColors = true →
      Template.isDynamic p.color = false ∧ Template.isDynamic p.bgcolor = false) :
    p.isBound = false := by
  obtain ⟨hneeded, hclasses⟩ := (withId_bound hw).2 hid
  rw [Placed.isBound, ← ha, hclasses, Bool.false_or]
  cases hk : p.kind.bindsColors with
  | false => rfl
  | true =>
    obtain ⟨hcolor, hbgcolor⟩ := hn hneeded hk
    rw [hcolor, hbgcolor]
    rfl

theorem isBound_of_plain (hid : a'.id = "") (hw : s.withId a kind needed = (a', t))
    (ha : a.hasBoundClasses = Template.isDynamic p.classes) (hk : p.kind.bindsColors = false) :
    p.isBound = false := by
  refine isBound_eq_false hid hw ha fun _ hb => ?_
  rw [hk] at hb
  cases hb

/-- The control of an element that is one widget. -/
theorem serves_single (hk : kind ≠ .button) (hkind : c.kind = kind) (hobj : c.obj = h)
    (houter : c.outer = none) (hclasses : c.classTemplate = Control.dynamic? (e.attr "class"))
    (hcolor : c.colorBind = kind.colorBind (⟨kind, e, h, h⟩ : Placed).color)
    (hbgcolor : c.bgcolorBind = kind.colorBind (⟨kind, e, h, h⟩ : Placed).bgcolor) :
    c.Serves ⟨kind, e, h, h⟩ where
  kind := hkind
  target := by rw [Control.target, houter, Option.getD_none, hobj]
  obj _ := hobj
  outer := iff_of_false (by simp [houter]) hk
  classes := hclasses
  color := hcolor
  bgcolor := hbgcolor

theorem classTemplate_eq (hw : s.withId (WidgetAttrs.ofElement e) kind needed = (a', t)) :
    Control.dynamic? a'.classes = Control.dynamic? (e.attr "class") :=
  congrArg Control.dynamic? (withId_bound hw).1

theorem buildLabel_joins (hs : s.WellFormed) (hp : s.Hosts parent) (e : Element) :
    (s.placeOf .label e parent).Joins s (s.buildLabel e parent) := by
  unfold buildLabel
  extract_lets color bgcolor
  split
  next a s₁ hw =>
  extract_lets text
  split
  next h s₂ hc =>
  extract_lets s₃ i s₄ s₅ c
  rw [placeOf_eq .label hw hc (by decide)]
  have hd₂ := drafted_create .label e hs hp hw hc
  have hd₃ : Drafted _ s s₃ := hd₂.carry <|
    (mapScreen_carries s₂ (Screen.carries_setText _ h text)).trans (applyRules_carries _ h _ a)
  obtain ⟨hd, hpaint⟩ := drafted_applyInline hd₃ (i := i) rfl rfl rfl rfl
  have hsettle := (place_settles (s₃.mapScreen (·.applyInline h h i)) h e).trans <|
    ((sizeLabel_settles _ h e).trans (alignLabel_settles _ h e)).trans (hideForGood_settles _ h a)
  refine (hd.carry hsettle.carries).register (hpaint.samePaint hsettle.screen.paint)
    (serves_single (by decide) rfl rfl rfl (classTemplate_eq hw) rfl rfl) fun hid => ?_
  refine isBound_eq_false hid hw rfl fun hn _ => ?_
  simp only [Bool.or_eq_false_iff] at hn
  exact ⟨hn.1.2, hn.2⟩

theorem buildButton_joins (hs : s.WellFormed) (hp : s.Hosts parent) (e : Element) :
    (s.placeOf .button e parent).Joins s (s.buildButton e parent) := by
  unfold buildButton
  extract_lets actions label color bgcolor isClickable isHoldable font isCentered
  split
  next a s₁ hw =>
  split
  next b s₂ hc =>
  split
  next lbl s₃ hl =>
  split
  next icon s₄ hi =>
  extract_lets s₅ geometry i s₆ y s₇ s₈ c₀ c
  obtain ⟨hd₃, hlbl⟩ := drafted_buttonLabel
    (drafted_create .button e hs hp hw hc) hl
  have hd₅ : Drafted _ s s₅ :=
    hd₃.carry ((buttonIcon_carries hi).trans (applyRules_carries _ b _ a))
  have hshows := isSome_buttonLabel (b := b) hlbl
  rw [placeOf_button hw hc hlbl]
  obtain ⟨hd, hpaint⟩ := drafted_applyInline hd₅ (i := i)
    (by rw [Placed.inline, ← hshows]; rfl) rfl (by rw [Placed.inline, ← hshows]; rfl) rfl
  have hcentered : Settles s₆ s₇ :=
    (mapScreen_settles s₆ (Screen.settles_align s₆.screen b .topMid ⟨0, y⟩)).ite
  have hsettle := hcentered.trans (hideForGood_settles s₇ b a)
  refine (hd.carry hsettle.carries).registerWith (hpaint.samePaint hsettle.screen.paint)
    ?_ (fun hid => ?_) b _ .click
  · exact
      { kind := rfl
        target := rfl
        obj := fun hs => by
          rw [← hshows] at hs
          obtain ⟨l, rfl⟩ := Option.isSome_iff_exists.mp hs
          rfl
        outer := ⟨fun _ => rfl, fun _ => rfl⟩
        classes := classTemplate_eq hw
        color := rfl
        bgcolor := rfl }
  · refine isBound_eq_false hid hw rfl fun hn _ => ?_
    simp only [Bool.or_eq_false_iff] at hn
    exact ⟨hn.1.2, hn.2⟩

theorem buildSwitch_joins (hs : s.WellFormed) (hp : s.Hosts parent) (e : Element) :
    (s.placeOf .switch e parent).Joins s (s.buildSwitch e parent) := by
  unfold buildSwitch
  split
  next a s₁ hw =>
  extract_lets checked
  split
  next h s₂ hc =>
  extract_lets s₃ i s₄
  rw [placeOf_eq .switch hw hc (by decide)]
  have hd₂ := drafted_create .switch e hs hp hw hc
  have hchecked : Carries s₂ (s₂.mapScreen (·.setChecked h checked)) :=
    mapScreen_carries s₂ (Screen.carries_modify (f := ({ · with checked := checked })) fun _ => rfl)
  have hd₃ : Drafted _ s s₃ := hd₂.carry (hchecked.trans (applyRules_carries _ h _ a))
  obtain ⟨hd, hpaint⟩ := drafted_applyInline hd₃ (i := i) rfl rfl rfl rfl
  have hsettle := hideForGood_settles (s₃.mapScreen (·.applyInline h h i)) h a
  exact (hd.carry hsettle.carries).registerWith (hpaint.samePaint hsettle.screen.paint)
    (serves_single (by decide) rfl rfl rfl (classTemplate_eq hw) rfl rfl)
    (fun hid => isBound_of_plain hid hw rfl rfl) h _ .switch

theorem buildSlider_joins (hs : s.WellFormed) (hp : s.Hosts parent) (e : Element) :
    (s.placeOf .slider e parent).Joins s (s.buildSlider e parent) := by
  unfold buildSlider
  split
  next a s₁ hw =>
  extract_lets low high initial
  split
  next h s₂ hc =>
  extract_lets s₃ s₄ i s₅
  rw [placeOf_eq .slider hw hc (by decide)]
  have hd₂ := drafted_create .slider e hs hp hw hc
  have hset : Carries s₂ s₃ := mapScreen_carries s₂ <|
    ((Screen.carries_modify (f := (·.setRange low high)) fun _ => rfl).trans
      (Screen.carries_modify (f := (·.setValue initial)) fun _ => rfl)).trans
      ((Screen.carries_styling h).setSize _ _ _)
  have hd₄ : Drafted _ s s₄ := hd₂.carry (hset.trans (applyRules_carries _ h _ a))
  obtain ⟨hd, hpaint⟩ := drafted_applyInline hd₄ (i := i) rfl rfl rfl rfl
  have hsettle := hideForGood_settles (s₄.mapScreen (·.applyInline h h i)) h a
  exact (hd.carry hsettle.carries).registerWith (hpaint.samePaint hsettle.screen.paint)
    (serves_single (by decide) rfl rfl rfl (classTemplate_eq hw) rfl rfl)
    (fun hid => isBound_of_plain hid hw rfl rfl) h _ .slider

theorem buildInput_joins (hs : s.WellFormed) (hp : s.Hosts parent) (e : Element) :
    (s.placeOf .input e parent).Joins s (s.buildInput e parent) := by
  unfold buildInput
  split
  next a s₁ hw =>
  extract_lets initial
  split
  next h s₂ hc =>
  extract_lets s₃ s₄ geometry i s₅
  rw [placeOf_eq .input hw hc (by decide)]
  have hd₂ := drafted_create .input e hs hp hw hc
  have hset : Carries s₂ s₃ := mapScreen_carries s₂ <|
    (((Screen.carries_configure _ h _).trans (Screen.carries_setText _ h initial)).trans
      ((Screen.carries_configure _ h _).trans (Screen.carries_configure _ h _))).trans
      (((Screen.carries_styling h).applyStyle _ _).trans ((Screen.carries_styling h).setSize _ _ _))
  have hd₄ : Drafted _ s s₄ := hd₂.carry (hset.trans (applyRules_carries _ h _ a))
  obtain ⟨hd, hpaint⟩ := drafted_applyInline hd₄ (i := i) rfl rfl rfl rfl
  have hsettle := hideForGood_settles (s₄.mapScreen (·.applyInline h h i)) h a
  exact (hd.carry hsettle.carries).registerWith (hpaint.samePaint hsettle.screen.paint)
    (serves_single (by decide) rfl rfl rfl (classTemplate_eq hw) rfl rfl)
    (fun hid => isBound_of_plain hid hw rfl rfl) h _ .input

theorem buildMarkdown_joins (hs : s.WellFormed) (hp : s.Hosts parent) (e : Element) :
    (s.placeOf .markdown e parent).Joins s (s.buildMarkdown e parent) := by
  unfold buildMarkdown
  extract_lets isDynamic theme
  split
  next a s₁ hw =>
  extract_lets text
  split
  next h s₂ hc =>
  extract_lets s₃ geometry i s₄ s₅ c₀ c
  rw [placeOf_eq .markdown hw hc (by decide)]
  have hd₂ := drafted_create .markdown e hs hp hw hc
  have hd₃ : Drafted _ s s₃ := hd₂.carry (applyRules_carries _ h _ a)
  obtain ⟨hd, hpaint⟩ := drafted_applyInline hd₃ (i := i) rfl rfl rfl rfl
  have hspans : Settles s₄ (s₄.mapScreen (·.setSpans h (Markdown.render text theme))) :=
    mapScreen_settles s₄ ⟨Screen.carries_modify (f := (·.setSpans (Markdown.render text theme)))
      fun _ => rfl, Screen.samePaint_setSpans s₄.screen h _⟩
  have hsettle := (place_settles (s₃.mapScreen (·.applyInline h h i)) h e).trans <|
    hspans.trans (hideForGood_settles _ h a)
  have hserves : c.Serves ⟨.markdown, e, h, h⟩ := by
    unfold c
    split <;> exact serves_single (by decide) rfl rfl rfl (classTemplate_eq hw) rfl rfl
  have hcid : c.id = a.id := by
    unfold c
    split <;> rfl
  exact (hd.carry hsettle.carries).register (hpaint.samePaint hsettle.screen.paint) hserves
    fun hid => isBound_of_plain (hcid ▸ hid) hw rfl rfl

/-! ## Whole documents -/

theorem buildLeaf_joins (hs : s.WellFormed) (hp : s.Hosts parent) (hk : kind.isStyled = true)
    (e : Element) : (s.placeOf kind e parent).Joins s (s.buildLeaf kind e parent) := by
  cases kind with
  | label => exact buildLabel_joins hs hp e
  | button => exact buildButton_joins hs hp e
  | switch => exact buildSwitch_joins hs hp e
  | slider => exact buildSlider_joins hs hp e
  | input => exact buildInput_joins hs hp e
  | markdown => exact buildMarkdown_joins hs hp e
  | canvas => cases hk
  | image => cases hk
  | tabs => cases hk
  | page => cases hk

theorem Draft.hosts {parts : List (Handle × WidgetContent)} {C : WidgetContent}
    (hd : Draft s ((h, C) :: parts) t) (hC : C.kind.isContainer = true)
    (hn : C.kind ≠ .indicator) : t.Hosts h := by
  obtain ⟨w, hw, hwc⟩ := hd.content (h, C) List.mem_cons_self
  have hk : w.kind = C.kind := congrArg WidgetContent.kind hwc
  exact ⟨w.kind, by rw [Screen.kind?, hw, Option.map_some], hk ▸ hC, hk ▸ hn⟩

theorem widget_ne_tabView (hk : kind.isStyled = true) : kind.widget ≠ .tabView := by
  cases kind with
  | tabs => cases hk
  | _ => decide

/-- The control of a set of tabs has none of the widgets inside. -/
theorem stands_finishTabs (hp : p.Stands t) (ht : t.screen.Sound) {view : Handle}
    (hv : t.screen.kind? view = some .tabView) (hk : p.kind.isStyled = true) (e : Element) :
    p.Stands (t.finishTabs e view) := by
  unfold finishTabs
  extract_lets a
  have hsettle := hideForGood_settles t view a
  refine (hp.settle ht hsettle).register (hsettle.carries.screen.sound ht) ?_
  have hother {k : Handle} {kind : WidgetKind} (hkind : t.screen.kind? k = some kind)
      (hne : kind ≠ .tabView) :
      ¬ ({ a.control .tabs view with classTemplate := none } : Control).Owns k := by
    rintro (ho | ho)
    · rw [← ho] at hkind
      exact hne (Option.some.inj (hkind.symm.trans hv))
    · cases ho
  have houter : ¬ ({ a.control .tabs view with classTemplate := none } : Control).Owns p.outer :=
    hother hp.made.outer (widget_ne_tabView hk)
  refine ⟨houter, ?_⟩
  rcases hp.made.inner with he | ⟨-, -, hlabel, -⟩
  · rwa [he]
  · exact hother hlabel (by decide)

/-- An element is left out, a set of tabs, or built as one widget or a button, and it is placed as
it is built. -/
theorem buildWidget_cases (parent : Handle) (tag : String) (attrs : NameTable)
    (text : String) (children : List Element) (inner : String) (s : Session) :
    let e : Element := ⟨tag, attrs, text, children, inner⟩
    (placedIn parent e s = [] ∧ buildWidget parent e s = s) ∨
    (∃ view t, s.createTabView e parent = (view, t) ∧
      placedIn parent e s = placedInTabs view children t ∧
      buildWidget parent e s = (buildTabs view children t).finishTabs e view) ∨
    ∃ kind, placedIn parent e s = [s.placeOf kind e parent] ∧
      buildWidget parent e s = s.buildLeaf kind e parent := by
  intro e
  rw [placedIn, buildWidget]
  cases ControlKind.ofTag? tag with
  | none => exact .inl ⟨rfl, rfl⟩
  | some kind =>
    cases kind with
    | tabs => exact .inr (.inl ⟨_, _, rfl, rfl, rfl⟩)
    | _ => exact .inr (.inr ⟨_, rfl, rfl⟩)

mutual
theorem buildWidget_stands (e : Element) {s : Session} {parent : Handle} (hs : s.WellFormed)
    (hp : s.Hosts parent) :
    ∀ p ∈ placedIn parent e s, p.kind.isStyled = true → p.Stands (buildWidget parent e s) := by
  obtain ⟨tag, attrs, text, children, inner⟩ := e
  rcases buildWidget_cases parent tag attrs text children inner s with
    ⟨hnone, -⟩ | ⟨view, s₁, hv, hplaced, hbuilt⟩ | ⟨kind, hplaced, hbuilt⟩
  · rw [hnone]
    exact fun p hp => nomatch hp
  · rw [hplaced, hbuilt]
    have hd := createTabView_draft hs hp.holds hv
    have hs₁ := hd.builds.wellFormed hs
    have hview := hd.hosts rfl (by decide)
    have hb := buildTabs_builds children hs₁ hview.holds
    have hkind : s₁.screen.kind? view = some .tabView := by
      obtain ⟨w, hw, hwc⟩ := hd.content _ List.mem_cons_self
      rw [Screen.kind?, hw]
      exact congrArg some (congrArg WidgetContent.kind hwc)
    intro p hp hk
    exact stands_finishTabs (buildTabs_stands children hs₁ hview p hp hk)
      (hb.wellFormed hs₁).screen.toSound (hb.screen.retains.kind _ _ hkind) hk _
  · rw [hplaced, hbuilt]
    intro p hmem hk
    rw [List.mem_singleton.mp hmem] at hk ⊢
    exact (buildLeaf_joins hs hp hk _).stands
theorem buildAll_stands (es : List Element) {s : Session} {parent : Handle} (hs : s.WellFormed)
    (hp : s.Hosts parent) :
    ∀ p ∈ placedInAll parent es s, p.kind.isStyled = true → p.Stands (buildAll parent es s) := by
  cases es with
  | nil => exact fun p hp => nomatch hp
  | cons e es =>
    rw [placedInAll, buildAll]
    have hb := buildWidget_builds e hs hp.holds
    have hs' := hb.wellFormed hs
    have hp' := hb.hosts hp
    intro p hmem hk
    rcases List.mem_append.mp hmem with hmem | hmem
    · exact (buildWidget_stands e hs hp p hmem hk).extend hs'.screen.toSound
        (buildAll_builds es hs' hp'.holds) (constructing_grows.buildAll parent es _)
    · exact buildAll_stands es hs' hp' p hmem hk
theorem buildTabs_stands (es : List Element) {s : Session} {view : Handle} (hs : s.WellFormed)
    (hp : s.Hosts view) :
    ∀ p ∈ placedInTabs view es s, p.kind.isStyled = true → p.Stands (buildTabs view es s) := by
  cases es with
  | nil => exact fun p hp => nomatch hp
  | cons e es =>
    obtain ⟨tag, attrs, text, children, inner⟩ := e
    rw [placedInTabs, buildTabs]
    by_cases htag : tag = "tab"
    · rw [if_pos htag, if_pos htag]
      generalize hv : s.createTab ⟨tag, attrs, text, children, inner⟩ view = made
      obtain ⟨tab, s₁⟩ := made
      obtain ⟨C, hC, hd⟩ := createTab_draft hs hp.holds hv
      have hs₁ := hd.builds.wellFormed hs
      have htab := hd.hosts (by rw [hC]; rfl) (by rw [hC]; decide)
      have hb := buildAll_builds children hs₁ htab.holds
      have hs₂ := hb.wellFormed hs₁
      have hp₂ := hb.hosts (hd.builds.hosts hp)
      intro p hmem hk
      rcases List.mem_append.mp hmem with hmem | hmem
      · exact (buildAll_stands children hs₁ htab p hmem hk).extend hs₂.screen.toSound
          (buildTabs_builds es hs₂ hp₂.holds) (constructing_grows.buildTabs view es _)
      · exact buildTabs_stands es hs₂ hp₂ p hmem hk
    · rw [if_neg htag, if_neg htag]
      exact buildTabs_stands es hs hp
end

end ScreenMarkup.Session
