import ScreenMarkup.Proofs.Session.Operations
import ScreenMarkup.Proofs.Session.Redrawing
import ScreenMarkup.Proofs.State.Canonical
import ScreenMarkup.Proofs.State.Writes

/-!
# Two ways to write a variable

A write refreshes the screen with the canonical text of what the variable
became, or with the text as it was given. Both leave the same variables. They
leave the same screen exactly when everything bound to the variable takes
both texts alike.
-/

set_option autoImplicit false

namespace ScreenMarkup

namespace Control

variable {s : Screen} {c : Control} {name raw canonical : String}

/-- Everything of the control that is bound to the variable takes the two texts alike. -/
structure TakesAlike (s : Screen) (c : Control) (name raw canonical : String) : Prop where
  input : c.bind = some name → c.kind = .input → canonical = raw
  switch : c.bind = some name → c.kind = .switch → readBool canonical = readBool raw
  slider : c.bind = some name → c.kind = .slider → ∀ w, s.widget? c.obj = some w →
    Widget.offer w.low w.high w.value (Numeric.leadingInt canonical.toList) =
      Widget.offer w.low w.high w.value (Numeric.leadingInt raw.toList)
  visible : c.visibleBind = some name → readBool canonical = readBool raw
  color : c.colorBind = some name → Color.ofAttribute canonical = Color.ofAttribute raw
  background : c.bgcolorBind = some name → Color.ofAttribute canonical = Color.ofAttribute raw

theorem TakesAlike.refl (s : Screen) (c : Control) (name raw : String) :
    c.TakesAlike s name raw raw :=
  ⟨fun _ _ => rfl, fun _ _ => rfl, fun _ _ _ _ => rfl, fun _ => rfl, fun _ => rfl, fun _ => rfl⟩

/-- What the control binds to the variable suits the variable's type: anything a text, sliders an
integer, switches and visibility a truth value. -/
def Suits (c : Control) (name : String) : VarType → Prop
  | .string => True
  | .int => (c.bind = some name → c.kind ≠ .input ∧ c.kind ≠ .switch) ∧
    c.visibleBind ≠ some name ∧ c.colorBind ≠ some name ∧ c.bgcolorBind ≠ some name
  | .bool => (c.bind = some name → c.kind ≠ .input ∧ c.kind ≠ .slider) ∧
    c.colorBind ≠ some name ∧ c.bgcolorBind ≠ some name
  | .float => (c.bind = some name → c.kind ≠ .input ∧ c.kind ≠ .switch ∧ c.kind ≠ .slider) ∧
    c.visibleBind ≠ some name ∧ c.colorBind ≠ some name ∧ c.bgcolorBind ≠ some name

theorem Suits.takesAlike {type : VarType} (hs : c.Suits name type) (s : Screen) (raw : String) :
    c.TakesAlike s name raw (Value.read type raw).text := by
  cases type with
  | string => exact TakesAlike.refl s c name raw
  | int =>
    obtain ⟨hbind, hvisible, hcolor, hbackground⟩ := hs
    have hint := Value.leadingInt_intText (Numeric.leadingInt_mem raw.toList).1
      (Numeric.leadingInt_mem raw.toList).2
    exact ⟨fun hb hk => absurd hk (hbind hb).1, fun hb hk => absurd hk (hbind hb).2,
      fun _ _ w _ => by rw [Value.read, Value.text, hint], fun hv => absurd hv hvisible,
      fun hc => absurd hc hcolor, fun hb => absurd hb hbackground⟩
  | bool =>
    obtain ⟨hbind, hcolor, hbackground⟩ := hs
    have hbool : readBool (Value.read .bool raw).text = readBool raw :=
      Value.readBool_boolText (readBool raw)
    exact ⟨fun hb hk => absurd hk (hbind hb).1, fun _ _ => hbool,
      fun hb hk => absurd hk (hbind hb).2, fun _ => hbool,
      fun hc => absurd hc hcolor, fun hb => absurd hb hbackground⟩
  | float =>
    obtain ⟨hbind, hvisible, hcolor, hbackground⟩ := hs
    exact ⟨fun hb hk => absurd hk (hbind hb).1, fun hb hk => absurd hk (hbind hb).2.1,
      fun hb hk => absurd hk (hbind hb).2.2, fun hv => absurd hv hvisible,
      fun hc => absurd hc hcolor, fun hb => absurd hb hbackground⟩

end Control

namespace Refresh

variable {r : Refresh} {s : Screen} {c : Control} {canonical : String}

/-- Refreshes with two texts make the same of the widgets of a control exactly when the control
takes the texts alike. -/
theorem redraw_eq_iff (hf : c.Fits s) (r : Refresh) (canonical : String) :
    (∀ k, c.Owns k → ∀ w, s.widget? k = some w →
      redraw { r with value := canonical } c k w = r.redraw c k w) ↔
      c.TakesAlike s r.name r.value canonical := by
  obtain ⟨w, hw⟩ := Screen.isLive_iff.mp (hf.live c.owns_obj)
  obtain ⟨u, hu⟩ := Screen.isLive_iff.mp (hf.live c.owns_target)
  constructor
  · intro hall
    have hobj := hall c.obj c.owns_obj w hw
    have htarget := hall c.target c.owns_target u hu
    refine ⟨fun hb hk => ?_, fun hb hk => ?_, fun hb hk x hx => ?_, fun hv => ?_, fun hc => ?_,
      fun hb => ?_⟩
    · simpa [redraw, textFor, hb, hk] using congrArg Widget.text hobj
    · simpa [redraw, checkedFor, hb, hk] using congrArg Widget.checked hobj
    · rw [hw, Option.some.injEq] at hx
      subst hx
      simpa [redraw, valueFor, hb, hk] using congrArg Widget.value hobj
    · simpa [redraw, hiddenFor, hv] using congrArg Widget.hidden htarget
    · simpa [redraw, styled, Style.recolor, colorFor, hc] using
        congrArg (·.style.textColor) hobj
    · simpa [redraw, styled, Style.recolor, backgroundFor, hb] using
        congrArg (·.style.bgColor) htarget
  · intro ht k _ x hx
    have htext : textFor { r with value := canonical } c k = r.textFor c k := by
      by_cases hb : c.bind = some r.name ∧ c.kind = .input
      · simp [textFor, hb, ht.input hb.1 hb.2]
      · simp only [textFor, if_neg hb]
        rfl
    have hchecked : checkedFor { r with value := canonical } c k = r.checkedFor c k := by
      by_cases hb : c.bind = some r.name ∧ c.kind = .switch
      · simp [checkedFor, hb, ht.switch hb.1 hb.2]
      · simp [checkedFor, hb]
    have hvalue : (valueFor { r with value := canonical } c k).elim x.value
        (Widget.offer x.low x.high x.value) =
          (r.valueFor c k).elim x.value (Widget.offer x.low x.high x.value) := by
      by_cases hb : k = c.obj ∧ c.bind = some r.name ∧ c.kind = .slider
      · simp [valueFor, hb, ht.slider hb.2.1 hb.2.2 x (hb.1 ▸ hx)]
      · simp only [valueFor, if_neg hb]
    have hhidden : hiddenFor { r with value := canonical } c k = r.hiddenFor c k := by
      by_cases hb : c.visibleBind = some r.name
      · simp [hiddenFor, hb, ht.visible hb]
      · simp [hiddenFor, hb]
    have hcolor : colorFor { r with value := canonical } c k = r.colorFor c k := by
      by_cases hb : c.colorBind = some r.name
      · simp [colorFor, hb, ht.color hb]
      · simp only [colorFor, if_neg hb]
        rfl
    have hbackground : backgroundFor { r with value := canonical } c k = r.backgroundFor c k := by
      by_cases hb : c.bgcolorBind = some r.name
      · simp [backgroundFor, hb, ht.background hb]
      · simp [backgroundFor, hb]
    unfold redraw styled
    rw [htext, hchecked, hvalue, hhidden, hcolor, hbackground]
    rfl

end Refresh

namespace Session

variable {s : Session} {name value : String}

/-! ## What a write leaves -/

/-- The refresh with a text after a write. -/
def refreshAfter (s : Session) (name value text : String) : Refresh :=
  ⟨s.store.record name value, s.sheet, s.config.screen, name, text⟩

theorem accept_store (s : Session) (name value : String) :
    (s.accept name value).store = s.store.record name value :=
  (Store.set_notify s.store name _).2.symm

theorem assign_store (s : Session) (name value : String) :
    (s.assign name value).store = s.store.record name value := by
  show (if (s.store.setText name value true).1 = true then _ else _ : Session).store = _
  split <;> rfl

theorem accept_redraws (hs : s.WellFormed) (name value : String) :
    Screen.Redraws (Controls.each (s.refreshAfter name value value).redraw s.controls) s.screen
      (s.accept name value).screen := by
  have hstore := withStore_keeps hs (s.store.setText name value false).2
  have hr : (s.withStore (s.store.setText name value false).2).refreshOf name value =
      s.refreshAfter name value value := by
    rw [refreshAfter, ← accept_store]
    rfl
  rw [← hr]
  exact refresh_redraws hstore.wellFormed name value

theorem assign_redraws (hs : s.WellFormed) (hc : (s.store.setText name value true).1 = true) :
    Screen.Redraws (Controls.each
      (s.refreshAfter name value ((s.store.record name value).text name)).redraw s.controls)
      s.screen (s.assign name value).screen := by
  have hstore := withStore_keeps hs (s.store.setText name value true).2
  have he : s.assign name value = (s.withStore (s.store.setText name value true).2).refresh name
      ((s.store.record name value).text name) := if_pos hc
  rw [he]
  exact refresh_redraws hstore.wellFormed name _

theorem assign_unchanged (hc : (s.store.setText name value true).1 = false) :
    (s.assign name value).screen = s.screen := by
  show (if (s.store.setText name value true).1 = true then _ else _ : Session).screen = _
  rw [hc]
  rfl

/-! ## Both ways -/

/-- The two ways to write a variable leave the same store whenever the write changes it, and the
same screen exactly when every control takes the text as it was given and the canonical text of
the variable alike; so when everything bound to the variable suits its type. -/
theorem accept_assign_iff (config : Config) (history : List Operation) (name value : String)
    (hchange : (((Session.new config).after history).store.setText name value true).1 = true) :
    let s := (Session.new config).after history
    let t := s.accept name value
    let u := s.assign name value
    t.store = u.store ∧
    (t.screen.SameTree u.screen ↔
      ∀ c ∈ s.controls, c.TakesAlike s.screen name value (t.store.text name)) ∧
    ((∀ c ∈ s.controls, c.Suits name (s.store.typeOf name)) → t.screen.SameTree u.screen) := by
  intro s t u
  have hs : s.WellFormed := (wellFormed_new config).after history
  have htext : (s.store.record name value).text name =
      (Value.read (s.store.typeOf name) value).text := by
    have hset := Store.set_notify s.store name (Value.read (s.store.typeOf name) value)
    have hsame := s.store.text_set (hset.1.symm.trans hchange)
    rw [Store.record, Store.setText, hset.2]
    exact hsame
  have hiff : t.screen.SameTree u.screen ↔
      ∀ c ∈ s.controls,
        c.TakesAlike s.screen name value ((s.store.record name value).text name) := by
    rw [(accept_redraws hs name value).sameTree_iff (assign_redraws hs hchange),
      Controls.each_eq_iff hs.apart (P := fun k w => s.screen.widget? k = some w)]
    exact forall₂_congr fun c hc => Refresh.redraw_eq_iff (hs.fits c hc)
      (s.refreshAfter name value value) _
  refine ⟨(accept_store s name value).trans (assign_store s name value).symm, ?_, fun hsuits => ?_⟩
  · rw [show t.store = s.store.record name value from accept_store s name value]
    exact hiff
  · rw [hiff, htext]
    exact fun c hc => (hsuits c hc).takesAlike s.screen value

/-- A label takes any text as it is given. -/
theorem accept_assign_alike_for_text :
    let s := (Session.new {}).after
      [.render "<state><string name='x' default='a'/></state><label>\x7bx\x7d</label>"]
    (s.store.setText "x" "b" true).1 = true ∧
      (s.accept "x" "b").screen.SameTree (s.assign "x" "b").screen := by
  intro s
  have hchange : (s.store.setText "x" "b" true).1 = true := by decide +kernel
  have htype : s.store.typeOf "x" = .string := by decide +kernel
  obtain ⟨-, -, hsuits⟩ := accept_assign_iff {}
    [.render "<state><string name='x' default='a'/></state><label>\x7bx\x7d</label>"] "x" "b"
    hchange
  refine ⟨hchange, hsuits fun c _ => ?_⟩
  rw [show (Session.after _ _).store.typeOf "x" = .string from htype]
  trivial

/-- An integer takes the text as zero, and so its switch is off; the text itself is true. -/
theorem not_accept_assign_alike :
    ¬ ∀ (config : Config) (history : List Operation) (name value : String), name ≠ "" →
      let s := (Session.new config).after history
      (s.store.setText name value true).1 = true →
      (s.accept name value).store = (s.assign name value).store ∧
        (s.accept name value).screen.SameTree (s.assign name value).screen := by
  intro hall
  have htree := (hall {}
    [.render "<state><int name='n' default='1'/></state><switch bind='n'/>"] "n" "true" (by decide)
    (by decide +kernel)).2.widget ⟨1, 1⟩
  revert htree
  decide +kernel

end Session
end ScreenMarkup
