import ScreenMarkup.Proofs.Session.Rendering
import ScreenMarkup.Proofs.State.Dependency
import ScreenMarkup.Session.Refresh

/-!
# Refreshing

A refresh brings each control up to date on its own widgets and leaves the
widgets of all others alone. So a session whose controls show their
variables stays so through every write.
-/

set_option autoImplicit false

namespace ScreenMarkup

namespace Widget

/-- What decides whether and where the widget is seen stays. -/
def SameShow (w v : Widget) : Prop := v.kind = w.kind ∧ v.hidden = w.hidden

/-- Only the hidden flag may differ. -/
def Veils (w v : Widget) : Prop := v.content = { w.content with hidden := v.hidden }

theorem SameShow.sameKind {w v : Widget} (hs : SameShow w v) : SameKind w v := hs.1

theorem SameContent.veils {w v : Widget} (hc : SameContent w v) : Veils w v := by
  have hh : v.hidden = w.hidden := congrArg WidgetContent.hidden hc
  rw [Veils, hc, hh]
  rfl

theorem SameContent.sameShow {w v : Widget} (hc : SameContent w v) : SameShow w v :=
  ⟨congrArg WidgetContent.kind hc, congrArg WidgetContent.hidden hc⟩

theorem Veils.sameKind {w v : Widget} (hv : Veils w v) : SameKind w v :=
  congrArg WidgetContent.kind hv

end Widget

namespace Screen

variable {s : Screen} {h : Handle}

theorem WellFormed.textWidget_eq (hs : s.WellFormed) (hk : s.kind? h = some .label) :
    s.textWidget h = h := by
  rw [textWidget, child?, hs.bare h .label hk rfl]
  rfl

end Screen

namespace Control

variable {store : Store} {s t : Screen} {c : Control} {H : Handle → Prop}

theorem ShowsText.veil (hc : c.ShowsText store s) (ht : Screen.Touches H Widget.Veils s t) :
    c.ShowsText store t := by
  obtain ⟨w, hw, htext⟩ := hc
  obtain ⟨v, hv, he⟩ := ht.exists_widget hw
  exact ⟨v, hv, he ▸ htext⟩

theorem ShowsValue.veil (hc : c.ShowsValue store s) (ht : Screen.Touches H Widget.Veils s t) :
    c.ShowsValue store t := by
  obtain ⟨w, hw, hvalue⟩ := hc
  obtain ⟨v, hv, he⟩ := ht.exists_widget hw
  exact ⟨v, hv, he ▸ hvalue⟩

theorem ShowsVisibility.show (hc : c.ShowsVisibility store s)
    (ht : Screen.Touches H Widget.SameShow s t) : c.ShowsVisibility store t := by
  obtain ⟨w, hw, hvisible⟩ := hc
  obtain ⟨v, hv, -, hh⟩ := ht.exists_widget hw
  exact ⟨v, hv, fun b hb => hh.trans (hvisible b hb)⟩

end Control

namespace Screen.Restyles

variable {s t : Screen} {H : Handle → Prop}

theorem veils (hr : Screen.Restyles H s t) : Screen.Touches H Widget.Veils s t :=
  Screen.Touches.mono hr (fun _ hk => hk) fun _ _ => Widget.SameContent.veils

theorem shows (hr : Screen.Restyles H s t) : Screen.Touches H Widget.SameShow s t :=
  Screen.Touches.mono hr (fun _ hk => hk) fun _ _ => Widget.SameContent.sameShow

end Screen.Restyles

namespace Refresh

variable {r : Refresh} {s : Screen} {c : Control}

theorem affected?_eq_some {template : Option String} {t : String}
    (ha : r.affected? template = some t) :
    template = some t ∧ Template.mentions t r.name = true := Option.filter_eq_some_iff.mp ha

/-! ## Single steps -/

theorem text_of_none (ha : r.affected? c.template = none) : r.text c s = s := by
  rw [text, ha]

theorem affected?_none (ht : c.template = none) : r.affected? c.template = none := by
  rw [ht]
  rfl

/-- A text goes to the widget of the control itself, since labels contain nothing. -/
theorem text_eq (hs : s.WellFormed) (hf : c.Fits s) {t : String}
    (ha : r.affected? c.template = some t) :
    r.text c s = s.modify c.obj fun w =>
      match c.theme with
      | some theme => w.setSpans (Markdown.render (Template.render t r.store) theme)
      | none => { w with text := Template.render t r.store } := by
  rw [text, ha]
  cases hth : c.theme with
  | some theme => rfl
  | none =>
    have hlabel := hf.label (by rw [(affected?_eq_some ha).1]; exact Option.some_ne_none t) hth
    dsimp only
    rw [hs.textWidget_eq hlabel, Screen.setText]

theorem text_touches (hs : s.WellFormed) (hf : c.Fits s) :
    Screen.Touches (· = c.obj) Widget.SameShow s (r.text c s) := by
  cases ha : r.affected? c.template with
  | none =>
    rw [text_of_none ha]
    exact Screen.Touches.refl (fun _ => ⟨rfl, rfl⟩) s
  | some t =>
    rw [text_eq hs hf ha]
    refine Screen.touches_modify (fun _ => ⟨rfl, rfl⟩) fun w => ?_
    cases c.theme <;> exact ⟨rfl, rfl⟩

theorem text_shows (hs : s.WellFormed) (hf : c.Fits s)
    (hp : (∃ t, r.affected? c.template = some t) ∨ c.ShowsText r.store s) :
    c.ShowsText r.store (r.text c s) := by
  cases ha : r.affected? c.template with
  | none =>
    rw [text_of_none ha]
    exact hp.resolve_left fun ⟨t, ht⟩ => by rw [ha] at ht; cases ht
  | some t =>
    obtain ⟨w, hw⟩ := Screen.isLive_iff.mp (hf.live c.owns_obj)
    refine ⟨_, by rw [text_eq hs hf ha, Screen.widget?_modify, if_pos rfl, hw, Option.map_some],
      fun t' ht' => ?_⟩
    rw [(affected?_eq_some ha).1] at ht'
    cases ht'
    cases c.theme <;> rfl

theorem classes_restyles (r : Refresh) (c : Control) (s : Screen) :
    Screen.Restyles (fun k => k = c.target ∨ k = c.obj) s (r.classes c s) := by
  have target {s t : Screen} (ht : Screen.Restyles (· = c.target) s t) :
      Screen.Restyles (fun k => k = c.target ∨ k = c.obj) s t := ht.mono fun _ => .inl
  unfold classes
  split
  · exact Screen.Restyles.refl s
  · extract_lets classes h rect ruled placed
    have hclear : Screen.Restyles (· = c.target) s (s.clearStyle h) :=
      Screen.clearStyle_restyles s h
    have hrules : Screen.Restyles (· = c.target) (s.clearStyle h) ruled :=
      Screen.applyRules_restyles _ h r.sheet c.kind.tag c.id classes r.size
    have hplace : Screen.Restyles (· = c.target) ruled placed :=
      (Screen.setPos_restyles _ h _ _).trans (Screen.setSize_restyles _ h _ _)
    refine (target ((hclear.trans hrules).trans hplace)).trans ?_
    split
    · exact (Screen.applyStyle_restyles placed c.obj _).mono fun _ => .inr
    · exact Screen.Restyles.refl placed

theorem bound_of_none (hb : c.bind = none) : r.bound c s = s := by
  rw [bound, hb, if_neg (by simp)]

theorem bound_of_ne (hb : c.bind ≠ some r.name) : r.bound c s = s := by
  rw [bound, if_neg hb]

theorem bound_touches (r : Refresh) (c : Control) (s : Screen) :
    Screen.Touches (· = c.obj) Widget.SameShow s (r.bound c s) := by
  have hrefl : Screen.Touches (· = c.obj) Widget.SameShow s s :=
    Screen.Touches.refl (fun _ => ⟨rfl, rfl⟩) s
  unfold bound
  split
  · split
    · exact Screen.touches_modify (fun _ => ⟨rfl, rfl⟩) fun _ => ⟨rfl, rfl⟩
    · extract_lets v
      split
      · exact hrefl
      · exact Screen.touches_modify (fun _ => ⟨rfl, rfl⟩) fun _ => ⟨rfl, rfl⟩
    · exact Screen.touches_modify (fun _ => ⟨rfl, rfl⟩) fun _ => ⟨rfl, rfl⟩
    · exact hrefl
  · exact hrefl

theorem valueIn_congr {store old : Store} {C : WidgetContent} (hv : c.ValueIn old C)
    (hs : ∀ v, c.bind = some v → store.text v = old.text v) : c.ValueIn store C := by
  intro v hb
  have h := hv v hb
  rw [hs v hb]
  exact h

theorem clampValue_idem (low high v : Int) :
    Widget.clampValue low high (Widget.clampValue low high v) = Widget.clampValue low high v := by
  unfold Widget.clampValue
  omega

theorem bound_shows {old : Store} (hp : c.ShowsValue old s) (hv : r.value = r.store.text r.name)
    (hold : ∀ v, v ≠ r.name → r.store.text v = old.text v) :
    c.ShowsValue r.store (r.bound c s) := by
  obtain ⟨w, hw, hvalue⟩ := hp
  by_cases hb : c.bind = some r.name
  · have hset (f : Widget → Widget) (hf : c.ValueIn r.store (f w).content) :
        c.ShowsValue r.store (s.modify c.obj f) :=
      ⟨f w, by rw [Screen.widget?_modify, if_pos rfl, hw, Option.map_some], hf⟩
    have hname {v : String} (hbv : c.bind = some v) : v = r.name :=
      Option.some.inj (hbv.symm.trans hb)
    rw [bound, if_pos hb]
    split
    · next hk =>
      apply hset ({ · with checked := readBool r.value })
      intro v hbv
      rw [hk, hname hbv, ← hv]
      rfl
    · next hk =>
      extract_lets v
      split
      · next hsame =>
        refine ⟨w, hw, fun n hbn => ?_⟩
        have hclamped := hvalue n hbn
        rw [Screen.value, hw, Option.map_some, Option.getD_some] at hsame
        rw [hk] at hclamped ⊢
        rw [hname hbn, ← hv]
        -- The widget holds a value of its range, and the written one is that value.
        show w.value = Widget.clampValue w.low w.high v
        rw [← hsame, show w.value = _ from hclamped]
        exact (clampValue_idem _ _ _).symm
      · apply hset (·.setValue v)
        intro n hbn
        rw [hk, hname hbn, ← hv]
        rfl
    · next hk =>
      apply hset ({ · with text := r.value })
      intro v hbv
      rw [hk, hname hbv, ← hv]
      rfl
    · next hswitch hslider hinput =>
      refine ⟨w, hw, fun v _ => ?_⟩
      split
      · next hk => exact absurd hk hswitch
      · next hk => exact absurd hk hslider
      · next hk => exact absurd hk hinput
      · trivial
  · rw [bound_of_ne hb]
    exact ⟨w, hw, valueIn_congr hvalue fun v hbv => hold v fun he => hb (he ▸ hbv)⟩

theorem visibility_of_ne (hb : c.visibleBind ≠ some r.name) : r.visibility c s = s := by
  rw [visibility, if_neg hb]

theorem visibility_touches (r : Refresh) (c : Control) (s : Screen) :
    Screen.Touches (· = c.target) Widget.Veils s (r.visibility c s) := by
  unfold visibility
  split
  · exact Screen.touches_modify (fun _ => rfl) fun _ => rfl
  · exact Screen.Touches.refl (P := Widget.Veils) (fun _ => rfl) s

theorem visibility_shows {old : Store} (hp : c.ShowsVisibility old s)
    (hv : r.value = r.store.text r.name)
    (hold : ∀ v, v ≠ r.name → r.store.text v = old.text v) :
    c.ShowsVisibility r.store (r.visibility c s) := by
  obtain ⟨w, hw, hvisible⟩ := hp
  by_cases hb : c.visibleBind = some r.name
  · rw [visibility, if_pos hb]
    refine ⟨{ w with hidden := !readBool r.value },
      by rw [Screen.setHidden, Screen.widget?_modify, if_pos rfl, hw, Option.map_some],
      fun v hbv => ?_⟩
    rw [hb] at hbv
    cases hbv
    rw [← hv]
    rfl
  · rw [visibility_of_ne hb]
    refine ⟨w, hw, fun v hbv => ?_⟩
    rw [hold v fun he => hb (he ▸ hbv)]
    exact hvisible v hbv

theorem colors_restyles (r : Refresh) (c : Control) (s : Screen) :
    Screen.Restyles (fun k => k = c.target ∨ k = c.obj) s (r.colors c s) := by
  unfold colors
  extract_lets background
  have hbackground : Screen.Restyles (fun k => k = c.target ∨ k = c.obj) s background := by
    unfold background
    split
    · exact (Screen.setBackground_restyles s c.target _).mono fun _ => .inl
    · exact Screen.Restyles.refl s
  refine hbackground.trans ?_
  split
  · exact (Screen.applyStyle_restyles background c.obj _).mono fun _ => .inr
  · exact Screen.Restyles.refl background

/-! ## One control -/

theorem control_touches (hs : s.WellFormed) (hf : c.Fits s) :
    Screen.Touches c.Owns Widget.SameKind s (r.control s c) := by
  have htrans : ∀ w v x : Widget, w.SameKind v → v.SameKind x → w.SameKind x :=
    fun _ _ _ p q => Eq.trans q p
  have hobj : ∀ k, k = c.obj → c.Owns k := fun k hk => hk ▸ c.owns_obj
  have hboth : ∀ k, k = c.target ∨ k = c.obj → c.Owns k := by
    rintro k (rfl | rfl)
    · exact c.owns_target
    · exact c.owns_obj
  have h₁ := (text_touches (r := r) hs hf).mono hobj fun _ _ => Widget.SameShow.sameKind
  have h₂ := Screen.Touches.mono (classes_restyles r c (r.text c s)) hboth
    fun _ _ => Widget.SameContent.sameKind
  have h₃ := (bound_touches r c (r.classes c (r.text c s))).mono hobj
    fun _ _ => Widget.SameShow.sameKind
  have h₄ := (visibility_touches r c (r.bound c (r.classes c (r.text c s)))).mono
    (fun k hk => hk ▸ c.owns_target) fun _ _ => Widget.Veils.sameKind
  have h₅ := Screen.Touches.mono
    (colors_restyles r c (r.visibility c (r.bound c (r.classes c (r.text c s))))) hboth
    fun _ _ => Widget.SameContent.sameKind
  exact Screen.Touches.trans htrans h₁ (Screen.Touches.trans htrans h₂
    (Screen.Touches.trans htrans h₃ (Screen.Touches.trans htrans h₄ h₅)))

theorem control_live (hs : s.WellFormed) (hf : c.Fits s) {h : Handle} (ho : c.Owns h) :
    ∃ w, (r.control s c).widget? h = some w := by
  have hl := (control_touches (r := r) hs hf).isLive h
  rw [hf.live ho] at hl
  exact Screen.isLive_iff.mp hl

theorem control_text (hs : s.WellFormed) (hf : c.Fits s)
    (hp : (∃ t, r.affected? c.template = some t) ∨ c.ShowsText r.store s) :
    c.ShowsText r.store (r.control s c) := by
  cases ht : c.template with
  | none =>
    obtain ⟨w, hw⟩ := control_live (r := r) hs hf c.owns_obj
    exact ⟨w, hw, fun t h => by rw [ht] at h; cases h⟩
  | some t =>
    have hbind : c.bind = none := by
      by_contra hb
      have hnone := hf.bound hb
      rw [ht] at hnone
      cases hnone
    have hclasses := (text_shows hs hf hp).veil (classes_restyles r c (r.text c s)).veils
    rw [control, bound_of_none hbind]
    exact (hclasses.veil (visibility_touches r c _)).veil (colors_restyles r c _).veils

theorem control_value {old : Store} (hs : s.WellFormed) (hf : c.Fits s)
    (hp : c.ShowsValue old s) (hv : r.value = r.store.text r.name)
    (hold : ∀ v, v ≠ r.name → r.store.text v = old.text v) :
    c.ShowsValue r.store (r.control s c) := by
  by_cases hbind : c.bind = none
  · obtain ⟨w, hw⟩ := control_live (r := r) hs hf c.owns_obj
    exact ⟨w, hw, fun v h => by rw [hbind] at h; cases h⟩
  · have htext : r.text c s = s := text_of_none (affected?_none (hf.bound hbind))
    rw [control, htext]
    have hclasses := hp.veil (classes_restyles r c s).veils
    have hbound := bound_shows hclasses hv hold
    exact (hbound.veil (visibility_touches r c _)).veil (colors_restyles r c _).veils

theorem control_visibility {old : Store} (hs : s.WellFormed) (hf : c.Fits s)
    (hp : c.ShowsVisibility old s) (hv : r.value = r.store.text r.name)
    (hold : ∀ v, v ≠ r.name → r.store.text v = old.text v) :
    c.ShowsVisibility r.store (r.control s c) := by
  have htext := hp.show (text_touches (r := r) hs hf)
  have hbound := (htext.show (classes_restyles r c _).shows).show (bound_touches r c _)
  exact (visibility_shows hbound hv hold).show (colors_restyles r c _).shows

/-! ## All controls -/

theorem foldl_touches {cs : List Control} (hs : s.WellFormed) (hf : ∀ c ∈ cs, c.Fits s) :
    Screen.Touches (fun h => ∃ c ∈ cs, c.Owns h) Widget.SameKind s (cs.foldl r.control s) := by
  induction cs generalizing s with
  | nil => exact Screen.Touches.refl (P := Widget.SameKind) (fun _ => rfl) s
  | cons c cs ih =>
    have ht := control_touches (r := r) hs (hf c (by simp))
    have hret := ht.retains (fun _ _ p => p) hs
    have hrest := ih hret.wellFormed fun d hd => (hf d (by simp [hd])).retain hret
    exact Screen.Touches.trans (fun _ _ _ p q => Eq.trans q p)
      (ht.mono (fun h ho => ⟨c, by simp, ho⟩) fun _ _ p => p)
      (hrest.mono (fun h ⟨d, hd, ho⟩ => ⟨d, by simp [hd], ho⟩) fun _ _ p => p)

/-- What a property of a control reads is on the widgets of the control. -/
def Local (P : Screen → Control → Prop) : Prop :=
  ∀ s t c, (∀ h, c.Owns h → t.widget? h = s.widget? h) → P s c → P t c

/-- What the refresh of one control gives, the refresh of all gives to each. -/
theorem foldl_controls {P Q : Screen → Control → Prop} (hP : Local P) (hQ : Local Q)
    (hstep : ∀ s c, s.WellFormed → c.Fits s → P s c → Q (r.control s c) c) {cs : List Control}
    (ha : cs.Pairwise Control.Apart) (hs : s.WellFormed) (hf : ∀ c ∈ cs, c.Fits s)
    (hp : ∀ c ∈ cs, P s c) : ∀ c ∈ cs, Q (cs.foldl r.control s) c := by
  induction cs generalizing s with
  | nil => simp
  | cons c cs ih =>
    obtain ⟨hapart, ha⟩ := List.pairwise_cons.mp ha
    have ht := control_touches (r := r) hs (hf c (by simp))
    have hret := ht.retains (fun _ _ p => p) hs
    have hframe : ∀ d ∈ cs, ∀ h, d.Owns h → (r.control s c).widget? h = s.widget? h :=
      fun d hd h ho => ht.frame h fun hc => hapart d hd h hc ho
    have hrest := ih ha hret.wellFormed (fun d hd => (hf d (by simp [hd])).retain hret)
      fun d hd => hP _ _ d (hframe d hd) (hp d (by simp [hd]))
    have hfits : ∀ d ∈ cs, d.Fits (r.control s c) := fun d hd => (hf d (by simp [hd])).retain hret
    have hlater := foldl_touches (r := r) hret.wellFormed hfits
    intro d hd
    rcases List.mem_cons.mp hd with rfl | hd
    · refine hQ _ _ d (fun h ho => ?_) (hstep s d hs (hf d (by simp)) (hp d (by simp)))
      exact hlater.frame h fun ⟨e, he, hoe⟩ => hapart e he h ho hoe
    · exact hrest d hd

theorem local_shows (store : Store) : Local (fun s c => c.ShowsText store s) ∧
    Local (fun s c => c.ShowsValue store s) ∧ Local fun s c => c.ShowsVisibility store s := by
  refine ⟨fun s t c hw => ?_, fun s t c hw => ?_, fun s t c hw => ?_⟩
  · rintro ⟨w, hs, hc⟩
    exact ⟨w, (hw _ c.owns_obj).trans hs, hc⟩
  · rintro ⟨w, hs, hc⟩
    exact ⟨w, (hw _ c.owns_obj).trans hs, hc⟩
  · rintro ⟨w, hs, hc⟩
    exact ⟨w, (hw _ c.owns_target).trans hs, hc⟩

/-- After a write of a variable, whatever its value, all texts get up to date. -/
theorem foldl_text {cs : List Control} (ha : cs.Pairwise Control.Apart) (hs : s.WellFormed)
    (hf : ∀ c ∈ cs, c.Fits s) {old : Store} (hn : r.name ≠ "")
    (hp : ∀ c ∈ cs, c.ShowsText old s) (hold : ∀ v, v ≠ r.name → r.store.text v = old.text v) :
    ∀ c ∈ cs, c.ShowsText r.store (cs.foldl r.control s) := by
  have hready : ∀ c ∈ cs, (∃ t, r.affected? c.template = some t) ∨ c.ShowsText r.store s := by
    intro c hc
    obtain ⟨w, hw, htext⟩ := hp c hc
    by_cases hmentions : ∃ t, c.template = some t ∧ Template.mentions t r.name = true
    · obtain ⟨t, ht⟩ := hmentions
      exact .inl ⟨t, Option.filter_eq_some_iff.mpr ht⟩
    · refine .inr ⟨w, hw, fun t ht => ?_⟩
      have hrender : Template.render t r.store = Template.render t old := by
        refine Template.render_congr fun v hv => hold v fun he => ?_
        rcases hv with hv | hv
        · exact hn (he.symm.trans hv)
        · exact hmentions ⟨t, ht, he ▸ hv⟩
      rw [hrender]
      exact htext t ht
  have hlocal := (local_shows r.store).1
  exact foldl_controls
    (fun s t c hw hc => hc.imp id (hlocal s t c hw)) hlocal
    (fun _ _ hs hf hc => control_text hs hf hc) ha hs hf hready

end Refresh

namespace Session

variable {s : Session}

/-- The refresh of all controls for a variable. -/
def refreshOf (s : Session) (name value : String) : Refresh :=
  ⟨s.store, s.sheet, s.config.screen, name, value⟩

/-- Every template shows the variables as they are. -/
def ShowsTexts (s : Session) : Prop := ∀ c ∈ s.controls, c.ShowsText s.store s.screen

theorem refresh_texts (hs : s.WellFormed) {old : Store} {name : String} (hn : name ≠ "")
    (hp : ∀ c ∈ s.controls, c.ShowsText old s.screen)
    (hold : ∀ v, v ≠ name → s.store.text v = old.text v) (value : String) :
    (s.refresh name value).ShowsTexts :=
  Refresh.foldl_text (r := s.refreshOf name value) hs.apart hs.screen hs.fits hn hp hold

/-- After a write of a variable and a refresh with its text, everything is up to date. -/
theorem refresh_consistent (hs : s.WellFormed) {old : Store} {name : String} (hn : name ≠ "")
    (hp : ∀ c ∈ s.controls, c.Shows old s.screen)
    (hold : ∀ v, v ≠ name → s.store.text v = old.text v) :
    (s.refresh name (s.store.text name)).Consistent := by
  have htext := refresh_texts hs hn (fun c hc => (hp c hc).text) hold (s.store.text name)
  have hvalue := Refresh.foldl_controls (r := s.refreshOf name (s.store.text name))
    (Refresh.local_shows old).2.1 (Refresh.local_shows s.store).2.1
    (fun _ _ hs hf hc => Refresh.control_value hs hf hc rfl hold)
    hs.apart hs.screen hs.fits fun c hc => (hp c hc).value
  have hvisible := Refresh.foldl_controls (r := s.refreshOf name (s.store.text name))
    (Refresh.local_shows old).2.2 (Refresh.local_shows s.store).2.2
    (fun _ _ hs hf hc => Refresh.control_visibility hs hf hc rfl hold)
    hs.apart hs.screen hs.fits fun c hc => (hp c hc).visibility
  exact fun c hc => ⟨htext c hc, hvalue c hc, hvisible c hc⟩

end Session
end ScreenMarkup
