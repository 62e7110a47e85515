import ScreenMarkup.Proofs.Session.Register

/-!
# Building widgets

Every builder adds widgets and at most one control, which shows its
variables, and leaves everything that was there.
-/

set_option autoImplicit false

namespace ScreenMarkup

theorem Control.dynamic?_eq {text t : String} (ht : dynamic? text = some t) : t = text := by
  unfold dynamic? at ht
  split at ht <;> cases ht
  rfl

theorem Control.nonempty?_eq {name v : String} (hv : nonempty? name = some v) :
    v = name ∧ name ≠ "" := by
  unfold nonempty? at hv
  split at hv <;> cases hv
  exact ⟨rfl, by assumption⟩

namespace Session

variable {s t u : Session} {parts : List (Handle × WidgetContent)} {h parent : Handle}
  {C : WidgetContent}

theorem Draft.setText (hd : Draft s ((h, C) :: parts) t) (x : String) :
    Draft s ((h, { C with text := x }) :: parts) (t.mapScreen (·.setText h x)) :=
  hd.modifyHead (f := ({ · with text := x })) (fun w hw => by rw [← hw]; rfl) fun _ => rfl

theorem Draft.setChecked (hd : Draft s ((h, C) :: parts) t) (b : Bool) :
    Draft s ((h, { C with checked := b }) :: parts) (t.mapScreen (·.setChecked h b)) :=
  hd.modifyHead (f := ({ · with checked := b })) (fun w hw => by rw [← hw]; rfl) fun _ => rfl

theorem Draft.setSpans (hd : Draft s ((h, C) :: parts) t) (x : List Span) :
    Draft s ((h, { C with spans := x, text := String.join (x.map (·.text)) }) :: parts)
      (t.mapScreen (·.setSpans h x)) :=
  hd.modifyHead (f := (·.setSpans x)) (fun w hw => by rw [← hw]; rfl) fun _ => rfl

theorem Draft.setRange (hd : Draft s ((h, C) :: parts) t) (low high : Int) :
    Draft s
      ((h, { C with
        low := low
        high := high
        value := Widget.clampValue low high C.value }) :: parts)
      (t.mapScreen (·.setRange h low high)) :=
  hd.modifyHead (f := (·.setRange low high)) (fun w hw => by rw [← hw]; rfl) fun _ => rfl

theorem Draft.setValue (hd : Draft s ((h, C) :: parts) t) (v : Int) :
    Draft s ((h, { C with value := Widget.clampValue C.low C.high v }) :: parts)
      (t.mapScreen (·.setValue h v)) :=
  hd.modifyHead (f := (·.setValue v)) (fun w hw => by rw [← hw]; rfl) fun _ => rfl

theorem Draft.configure (hd : Draft s ((h, C) :: parts) t) (setting : Setting) :
    Draft s ((h, C) :: parts) (t.mapScreen (·.configure h setting)) :=
  hd.restyleHead (Screen.configure_restyles t.screen h setting)

theorem Draft.applyStyle (hd : Draft s ((h, C) :: parts) t) (p : StyleChange) :
    Draft s ((h, C) :: parts) (t.mapScreen (·.applyStyle h p)) :=
  hd.restyleHead (Screen.applyStyle_restyles t.screen h p)

theorem Draft.applyStyles (hd : Draft s ((h, C) :: parts) t) (ps : List StyleChange) :
    Draft s ((h, C) :: parts) (t.mapScreen (·.applyStyles h ps)) :=
  hd.restyleHead (Screen.applyStyles_restyles t.screen h ps)

theorem Draft.setSize (hd : Draft s ((h, C) :: parts) t) (x y : Int) :
    Draft s ((h, C) :: parts) (t.mapScreen (·.setSize h x y)) :=
  hd.restyleHead (Screen.setSize_restyles t.screen h x y)

theorem Draft.align (hd : Draft s ((h, C) :: parts) t) (a : Align) (shift : Offset) :
    Draft s ((h, C) :: parts) (t.mapScreen (·.align h a shift)) :=
  hd.restyleHead (Screen.align_restyles t.screen h a shift)

theorem Draft.applyInline (hd : Draft s ((h, C) :: parts) t) (i : Inline) :
    Draft s ((h, C) :: parts) (t.mapScreen (·.applyInline h h i)) :=
  hd.restyleHead ((Screen.applyInline_restyles t.screen h h i).mono fun _ hk => hk.elim id id)

theorem Draft.alignIf (hd : Draft s ((h, C) :: parts) t) {p : Prop} [Decidable p] (a : Align)
    (shift : Offset) :
    Draft s ((h, C) :: parts) (if p then t.mapScreen (·.align h a shift) else t) := by
  split
  · exact hd.align a shift
  · exact hd

/-! ## Labels -/

theorem mapScreen_restyles {f : Screen → Screen}
    (hf : Screen.Restyles (· = h) s.screen (f s.screen)) :
    ∃ v, Screen.Restyles (· = h) s.screen v ∧ s.mapScreen f = { s with screen := v } :=
  ⟨_, hf, rfl⟩

theorem sizeLabel_restyles (s : Session) (h : Handle) (e : Element) :
    ∃ v, Screen.Restyles (· = h) s.screen v ∧ s.sizeLabel h e = { s with screen := v } := by
  unfold sizeLabel
  extract_lets w n
  split
  · refine mapScreen_restyles ((Screen.resize_restyles s.screen h w n).trans ?_)
    split
    · exact Screen.configure_restyles _ h _
    · exact Screen.Restyles.refl _
  · exact ⟨s.screen, Screen.Restyles.refl _, rfl⟩

theorem Draft.sizeLabel (hd : Draft s ((h, C) :: parts) t) (e : Element) :
    Draft s ((h, C) :: parts) (t.sizeLabel h e) := by
  obtain ⟨v, hv, he⟩ := t.sizeLabel_restyles h e
  rw [he]
  exact hd.restyleHead (f := fun _ => v) hv

theorem alignLabel_restyles (s : Session) (h : Handle) (e : Element) :
    ∃ v, Screen.Restyles (· = h) s.screen v ∧ s.alignLabel h e = { s with screen := v } := by
  unfold alignLabel
  extract_lets horizontal n
  refine mapScreen_restyles ?_
  extract_lets screen
  have hscreen : Screen.Restyles (· = h) s.screen screen := by
    unfold screen
    split
    · exact Screen.applyStyle_restyles _ h _
    · exact Screen.Restyles.refl _
  refine hscreen.trans ?_
  split
  · exact Screen.alignText_restyles _ h _ _
  · exact Screen.Restyles.refl _

theorem Draft.alignLabel (hd : Draft s ((h, C) :: parts) t) (e : Element) :
    Draft s ((h, C) :: parts) (t.alignLabel h e) := by
  obtain ⟨v, hv, he⟩ := t.alignLabel_restyles h e
  rw [he]
  exact hd.restyleHead (f := fun _ => v) hv

theorem buildLabel_builds (hs : s.WellFormed) (hp : s.Holds parent) (e : Element) :
    Builds s (s.buildLabel e parent) := by
  unfold buildLabel
  extract_lets color bgcolor
  split
  next a s₁ hw =>
  extract_lets text
  split
  next h s₂ hc =>
  extract_lets s₃ i s₄ s₅ c
  have hd₁ : Draft s [] s₁ := (Draft.nil (Builds.refl hs.screen)).withId hw
  have htext : text = s.shown e.text := by
    rw [shown, ← hd₁.builds.store]
    rfl
  have hd₂ := hd₁.create hs (hd₁.builds.holds hp) hc
  have hd₃ : Draft s _ s₃ := (hd₂.setText text).applyRules .label a
  have hd₅ := (((hd₃.applyInline i).place e).sizeLabel e).alignLabel e
  refine (hd₅.hideForGood a).register (Control.Drawn.single rfl rfl (fun hk => by cases hk) rfl rfl
    rfl (fun t ht => ?_) (fun v hv => by cases hv) (fun _ _ => rfl) (fun hb => absurd rfl hb)
    fun hk => by cases hk)
  show text = Template.render t s.store
  rw [Control.dynamic?_eq ht]
  exact htext

/-! ## Rich text -/

theorem buildMarkdown_builds (hs : s.WellFormed) (hp : s.Holds parent) (e : Element) :
    Builds s (s.buildMarkdown e parent) := by
  unfold buildMarkdown
  extract_lets isDynamic theme
  split
  next a s₁ hw =>
  extract_lets text
  split
  next h s₂ hc =>
  extract_lets s₃ geometry i s₄ s₅ c₀ c
  have hd₁ : Draft s [] s₁ := (Draft.nil (Builds.refl hs.screen)).withId hw
  have htext : text = s.shown e.text := by
    rw [shown, ← hd₁.builds.store]
    rfl
  have hd₂ := hd₁.create hs (hd₁.builds.holds hp) hc
  have hd₃ : Draft s _ s₃ := hd₂.applyRules .markdown a
  have hd₄ : Draft s _ s₄ := (hd₃.applyInline i).place e
  have hd₅ := (hd₄.setSpans (Markdown.render text theme)).hideForGood a
  cases hdyn : isDynamic with
  | false =>
    have he : c = c₀ := by simp only [c, hdyn, Bool.false_eq_true, if_false]
    rw [he]
    exact hd₅.register (Control.Drawn.single rfl rfl (fun hk => by cases hk) rfl rfl rfl
      (fun t ht => by cases ht) (fun v hv => by cases hv) (fun ht => absurd rfl ht)
      (fun hb => absurd rfl hb) fun hk => by cases hk)
  | true =>
    have he : c = { c₀ with template := some e.text, theme := some theme } := by
      simp only [c, hdyn, if_true]
    rw [he]
    refine hd₅.register (Control.Drawn.single rfl rfl (fun hk => by cases hk) rfl rfl rfl
      (fun t ht => ?_) (fun v hv => by cases hv) (fun _ hn => by cases hn)
      (fun hb => absurd rfl hb) fun hk => by cases hk)
    cases ht
    show Markdown.render text theme = Markdown.render (Template.render e.text s.store) theme
    rw [htext]
    rfl

/-! ## Buttons -/

theorem Draft.buttonLabel (hs : s.WellFormed) (hd : Draft s parts t) {b : Handle}
    (hb : t.Holds b) {label : ButtonLabel} {lbl : Option Handle}
    (hl : t.buttonLabel b label = (lbl, u)) :
    Draft s (lbl.toList.map (·, { (Widget.new .label).content with text := s.shown label.text }) ++
      parts) u := by
  unfold Session.buttonLabel at hl
  split at hl
  · cases hl
    exact hd
  · extract_lets text at hl
    split at hl
    next h s₁ hc =>
    extract_lets s₂ s₃ at hl
    obtain ⟨hlbl, hu⟩ := Prod.mk.inj hl
    have htext : text = s.shown label.text := by
      rw [shown, ← hd.builds.store]
      rfl
    have hd₁ := (hd.create hs hb hc).setText text
    have hd₂ : Draft s _ s₂ := hd₁.align .center {}
    rw [← htext, ← hlbl, ← hu]
    show Draft s (_ :: parts) s₃
    unfold s₃
    split
    · exact hd₂.applyStyle _
    · exact hd₂

theorem Draft.buttonIcon (hs : s.WellFormed) (hd : Draft s parts t) {b : Handle}
    (hb : t.Holds b) {e : Element} {hasLabel : Bool} {icon : Option Handle}
    (hi : t.buttonIcon b e hasLabel = (icon, u)) :
    Draft s (icon.toList.map (·, (Widget.new .image).content) ++ parts) u := by
  unfold Session.buttonIcon at hi
  extract_lets src size at hi
  split at hi
  · cases hi
    exact hd
  · split at hi
    next h s₁ hc =>
    extract_lets path at hi
    cases hi
    exact (((hd.create hs hb hc).configure (.imageSource path)).setSize size size).align _ {}

/-- The control of a button whose label and icon are there as told. -/
theorem drawn_button {store : Store} {a : WidgetAttrs} {c : Control} {b : Handle}
    {lbl icon : Option Handle} {text : String} {B L I : WidgetContent}
    (hobj : c.obj = (lbl.or icon).getD b) (houter : c.outer = some b) (hkind : c.kind = .button)
    (hvisible : c.visibleBind = (a.control c.kind b).visibleBind)
    (htemplate : c.template = if lbl.isSome then Control.dynamic? text else none)
    (htheme : c.theme = none) (hbind : c.bind = none)
    (hB : B.hidden = false ∧ B.kind.navigates = false)
    (hL : L.kind = .label ∧ L.text = Template.render text store) (hI : I.kind.navigates = false) :
    c.Drawn store ((b, { B with hidden := a.isHiddenForGood || B.hidden }) ::
      (icon.toList.map (·, I) ++ lbl.toList.map (·, L))) where
  kind := by
    rw [hkind]
    nofun
  owned k hk := by
    rcases hk with hk | hk
    · rw [← hk, hobj]
      cases lbl with
      | some l => exact ⟨(l, L), by simp, rfl, by rw [hL.1]; rfl⟩
      | none =>
        cases icon with
        | some i => exact ⟨(i, I), by simp, rfl, hI⟩
        | none => exact ⟨_, List.mem_cons_self, rfl, hB.2⟩
    · rw [houter] at hk
      cases hk
      exact ⟨_, List.mem_cons_self, rfl, hB.2⟩
  shown := by
    have hvalue (C : WidgetContent) : c.ValueIn store C := by
      intro v hv
      rw [hbind] at hv
      cases hv
    -- without a label nothing is asked for
    have hnone (hn : lbl = none) : c.template = none := by
      rw [htemplate, hn]
      rfl
    have hbare (hn : lbl = none) (C : WidgetContent) : c.TextIn store C := by
      intro t ht
      rw [hnone hn] at ht
      cases ht
    rw [hobj]
    cases lbl with
    | some l =>
      refine ⟨(l, L), by simp, rfl, fun t ht => ?_, hvalue L, fun _ _ => hL.1⟩
      rw [htemplate] at ht
      rw [htheme, Control.dynamic?_eq ht]
      exact hL.2
    | none =>
      cases icon with
      | some i =>
        exact ⟨(i, I), by simp, rfl, hbare rfl _, hvalue _, fun ht => absurd (hnone rfl) ht⟩
      | none =>
        exact ⟨_, List.mem_cons_self, rfl, hbare rfl _, hvalue _, fun ht => absurd (hnone rfl) ht⟩
  visible hv := by
    refine ⟨_, List.mem_cons_self, by rw [Control.target, houter, Option.getD_some], ?_⟩
    rw [hvisible] at hv
    show (a.isHiddenForGood || B.hidden) = false
    rw [WidgetAttrs.isHiddenForGood_eq_false hv, hB.1, Bool.or_self]
  bound hb := absurd hbind hb
  slider hk := by
    rw [hkind] at hk
    cases hk

theorem buildButton_builds (hs : s.WellFormed) (hp : s.Holds parent) (e : Element) :
    Builds s (s.buildButton e parent) := by
  unfold buildButton
  extract_lets actions label color bgcolor isClickable isHoldable font isCentered
  split
  next a s₁ hw =>
  split
  next b s₂ hc =>
  split
  next lbl s₃ hl =>
  split
  next icon s₄ hi =>
  extract_lets s₅ geometry i s₆ y s₇ s₈ c₀ c
  have hd₁ : Draft s [] s₁ := (Draft.nil (Builds.refl hs.screen)).withId hw
  have hd₂ := hd₁.create hs (hd₁.builds.holds hp) hc
  have hd₃ := hd₂.buttonLabel hs (hd₂.holds rfl) hl
  have hb : s₃.Holds b := hd₃.holds_of_mem (List.mem_append_right _ List.mem_cons_self) rfl
  have hd₄ := hd₃.buttonIcon hs hb hi
  rw [← List.append_assoc] at hd₄
  have hd₄ := hd₄.perm (List.perm_append_singleton _ _).symm
  have hd₅ : Draft s _ s₅ := hd₄.applyRules .button a
  have hinline : Screen.Restyles _ s₅.screen (s₅.screen.applyInline b (lbl.getD b) i) :=
    Screen.applyInline_restyles s₅.screen b (lbl.getD b) i
  have hd₆ : Draft s _ s₆ := hd₅.restyle <| hinline.mono fun k hk => by
    rcases hk with rfl | rfl
    · exact List.mem_cons_self
    · cases lbl <;> simp
  have hd₇ : Draft s _ s₇ := hd₆.alignIf .topMid ⟨0, y⟩
  exact (hd₇.hideForGood a).registerWith
    (drawn_button rfl rfl rfl rfl rfl rfl rfl ⟨rfl, rfl⟩ ⟨rfl, rfl⟩ rfl)
    b _ fun i hi => by cases hi

end Session
end ScreenMarkup
