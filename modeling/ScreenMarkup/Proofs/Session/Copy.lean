import ScreenMarkup.Proofs.Navigation.Copy
import ScreenMarkup.Proofs.State.Dependency
import ScreenMarkup.Session.Build.Registration

/-!
# Copies of a session

A copy of a session has the same variables, rules and controls on a copy of
its screen. Whatever the steps of building a widget ask for, it answers alike,
and each step leads from copies to copies.
-/

set_option autoImplicit false

namespace ScreenMarkup

theorem Store.text_congr {s t : Store} (hv : t.vars = s.vars) (name : String) :
    t.text name = s.text name := by
  simp only [Store.text, Store.get?, hv]

theorem Template.render_of_vars {s t : Store} (hv : t.vars = s.vars) (template : String) :
    Template.render template t = Template.render template s :=
  Template.render_congr fun name _ => Store.text_congr hv name

namespace Session

variable {ρ : Renaming} {s t : Session} {h k : Handle}

/-- What a new document is built on: not the host, the clock and the notices. -/
structure Copies (ρ : Renaming) (s t : Session) : Prop where
  screen : Screen.Copies ρ s.screen t.screen
  config : t.config = s.config
  vars : t.store.vars = s.store.vars
  sheet : t.sheet = s.sheet
  controls : t.controls = s.controls.map (Control.rename ρ)
  router : t.router = s.router.rename ρ
  nav : t.nav = s.nav.rename ρ
  head : t.head = s.head
  pendingZ : t.pendingZ = s.pendingZ.map (Prod.map ρ id)
  autoId : t.autoId = s.autoId
  focusedInput : t.focusedInput = s.focusedInput.map ρ

namespace Copies

/-! ## What is read -/

theorem text (hc : Copies ρ s t) (name : String) : t.store.text name = s.store.text name :=
  Store.text_congr hc.vars name

theorem shown (hc : Copies ρ s t) (text : String) : t.shown text = s.shown text :=
  Template.render_of_vars hc.vars text

theorem across? (hc : Copies ρ s t) (e : Element) (name : String) :
    t.across? e name = s.across? e name := by
  rw [Session.across?, Session.across?, hc.config]

theorem down? (hc : Copies ρ s t) (e : Element) (name : String) :
    t.down? e name = s.down? e name := by
  rw [Session.down?, Session.down?, hc.config]

theorem across (hc : Copies ρ s t) (e : Element) (name : String) (fallback : Int) :
    t.across e name fallback = s.across e name fallback := by
  rw [Session.across, Session.across, hc.across?]

theorem down (hc : Copies ρ s t) (e : Element) (name : String) (fallback : Int) :
    t.down e name fallback = s.down e name fallback := by
  rw [Session.down, Session.down, hc.down?]

theorem writtenPlace (hc : Copies ρ s t) (e : Element) : t.writtenPlace e = s.writtenPlace e := by
  simp only [Session.writtenPlace, hc.across?, hc.down?]

theorem writtenColor (hc : Copies ρ s t) (value : String) :
    t.writtenColor value = s.writtenColor value := by
  simp only [Session.writtenColor, hc.text]

theorem resourcePath (hc : Copies ρ s t) (src : String) :
    t.resourcePath src = s.resourcePath src := by
  simp only [Session.resourcePath, hc.config]

/-! ## Single steps -/

theorem mapScreen (hc : Copies ρ s t) {f g : Screen → Screen}
    (hfg : ∀ {u v : Screen}, Screen.Copies ρ u v → Screen.Copies ρ (f u) (g v)) :
    Copies ρ (s.mapScreen f) (t.mapScreen g) :=
  { hc with screen := hfg hc.screen }

theorem ite (hc : Copies ρ s t) {c : Prop} [Decidable c] {u v : Session} (hd : Copies ρ u v) :
    Copies ρ (if c then s else u) (if c then t else v) := by
  split
  · exact hc
  · exact hd

theorem create (hc : Copies ρ s t) (kind : WidgetKind) (parent : Handle) :
    ∃ h s' t', s.create kind parent = (h, s') ∧ t.create kind (ρ parent) = (ρ h, t') ∧
      Copies ρ s' t' := by
  obtain ⟨h, u, v, hs, ht, hc'⟩ := hc.screen.exists_create kind parent
  simp only [Session.create, hs, ht]
  exact ⟨_, _, _, rfl, rfl, { hc with screen := hc' }⟩

theorem withId (hc : Copies ρ s t) (a : WidgetAttrs) (kind : ControlKind) (needed : Bool) :
    ∃ a' s' t', s.withId a kind needed = (a', s') ∧ t.withId a kind needed = (a', t') ∧
      Copies ρ s' t' := by
  unfold Session.withId
  rw [hc.autoId]
  split
  · exact ⟨_, _, _, rfl, rfl, { hc with autoId := rfl }⟩
  · exact ⟨_, _, _, rfl, rfl, hc⟩

theorem hideForGood (hc : Copies ρ s t) (h : Handle) (a : WidgetAttrs) :
    Copies ρ (s.hideForGood h a) (t.hideForGood (ρ h) a) :=
  (hc.mapScreen fun hc => hc.setHidden h true).ite hc

theorem keepZIndex (hc : Copies ρ s t) (h : Handle) (z : Int) :
    Copies ρ (s.keepZIndex h z) (t.keepZIndex (ρ h) z) := by
  have hindex : t.controls.widgetIndex? (ρ h) = s.controls.widgetIndex? h := by
    rw [hc.controls, Controls.widgetIndex?_rename]
  unfold Session.keepZIndex
  rw [hindex]
  cases s.controls.widgetIndex? h with
  | some i =>
    refine { hc with controls := ?_ }
    show t.controls.modify i _ = (s.controls.modify i ({ · with zIndex := z })).map _
    rw [hc.controls]
    exact Controls.modify_rename (g := ({ · with zIndex := z })) (fun _ => rfl) s.controls i
  | none =>
    refine { hc with pendingZ := ?_ }
    show (ρ h, z) :: t.pendingZ.filter (·.1 ≠ ρ h) = _
    rw [hc.pendingZ, filter_rename, List.map_cons]
    rfl

theorem applyRules (hc : Copies ρ s t) (h : Handle) (kind : ControlKind) (a : WidgetAttrs) :
    Copies ρ (s.applyRules h kind a) (t.applyRules (ρ h) kind a) := by
  obtain ⟨z, u, v, hs, ht, hscreen⟩ := hc.screen.exists_applyRules h s.sheet kind.tag a.id
    (if a.hasBoundClasses then s.shown a.classes else a.classes) s.config.screen
  rw [← hc.sheet, ← hc.config] at ht
  have hc' : Copies ρ { s with screen := u } { t with screen := v } := { hc with screen := hscreen }
  simp only [Session.applyRules, hc.shown, hs, ht]
  cases z with
  | none => exact hc'
  | some z => exact hc'.keepZIndex h z

theorem place (hc : Copies ρ s t) (h : Handle) (e : Element) :
    Copies ρ (s.place h e) (t.place (ρ h) e) := by
  unfold Session.place
  rw [hc.across?, hc.down?]
  extract_lets align valign x? y? aligned
  cases x? with
  | none =>
    cases y? with
    | none => exact hc.mapScreen fun hc => (hc.align h _ {}).ite hc
    | some y => exact hc.mapScreen fun hc => (hc.align h _ ⟨0, y⟩).ite (hc.setPos h 0 y)
  | some x =>
    cases y? with
    | none =>
      exact hc.mapScreen fun hc =>
        (hc.align h .leftMid ⟨x, 0⟩).ite ((hc.align h .bottomLeft ⟨x, 0⟩).ite (hc.setPos h x 0))
    | some y => exact hc.mapScreen fun hc => hc.setPos h x y

/-! ## Registration -/

theorem claim (hc : Copies ρ s t) (h : Handle) :
    ∃ z s' t', s.claim h = (z, s') ∧ t.claim (ρ h) = (z, t') ∧ Copies ρ s' t' := by
  unfold Session.claim
  rw [hc.pendingZ, lookup_rename]
  cases s.pendingZ.lookup h with
  | none => exact ⟨_, _, _, rfl, rfl, hc⟩
  | some z => exact ⟨_, _, _, rfl, rfl, { hc with pendingZ := filter_rename s.pendingZ h }⟩

theorem claimFor (hc : Copies ρ s t) (c : Control) :
    ∃ z s' t', s.claimFor c = (z, s') ∧ t.claimFor (c.rename ρ) = (z, t') ∧ Copies ρ s' t' := by
  obtain ⟨z, s₁, t₁, hs, ht, hc₁⟩ := hc.claim c.obj
  have ht : t.claim (c.rename ρ).obj = (z, t₁) := ht
  have houter : (c.rename ρ).outer = c.outer.map ρ := rfl
  unfold Session.claimFor
  rw [hs, ht, houter]
  cases z with
  | some z => exact ⟨_, _, _, rfl, rfl, hc₁⟩
  | none =>
    cases c.outer with
    | none => exact ⟨_, _, _, rfl, rfl, hc₁⟩
    | some outer => exact hc₁.claim outer

theorem register (hc : Copies ρ s t) (c : Control) :
    ∃ i s' t', s.register c = (i, s') ∧ t.register (c.rename ρ) = (i, t') ∧ Copies ρ s' t' := by
  have hid : (c.rename ρ).id = c.id := rfl
  have hvisible : (c.rename ρ).visibleBind = c.visibleBind := rfl
  unfold Session.register
  rw [hid, hvisible, c.target_rename]
  split
  · exact ⟨_, _, _, rfl, rfl, hc⟩
  · extract_lets veiled veiled'
    have hveiled : Copies ρ veiled veiled' := by
      unfold veiled veiled'
      cases c.visibleBind with
      | none => exact hc
      | some v =>
        simp only [hc.text]
        exact hc.ite (hc.mapScreen fun hc => hc.setHidden c.target true)
    obtain ⟨z, s₁, t₁, hs, ht, hc₁⟩ := hveiled.claimFor c
    rw [hs, ht]
    refine ⟨_, _, _, rfl, Prod.ext ?_ rfl, { hc₁ with controls := ?_ }⟩
    · exact congrArg some (by rw [hc₁.controls, List.length_map])
    · show t₁.controls ++ _ = _
      rw [hc₁.controls, List.map_append]
      rfl

theorem register_snd (hc : Copies ρ s t) (c : Control) :
    Copies ρ (s.register c).2 (t.register (c.rename ρ)).2 := by
  obtain ⟨i, s₁, t₁, hs, ht, hc₁⟩ := hc.register c
  rw [hs, ht]
  exact hc₁

theorem registerWith (hc : Copies ρ s t) (c : Control) (h : Handle) (kinds : List EventKind)
    (listener : Nat → Listener) :
    Copies ρ (s.registerWith c h kinds listener)
      (t.registerWith (c.rename ρ) (ρ h) kinds listener) := by
  obtain ⟨i, s₁, t₁, hs, ht, hc₁⟩ := hc.register c
  unfold Session.registerWith
  rw [hs, ht]
  cases i with
  | none => exact hc₁
  | some i =>
    refine { hc₁ with router := ?_ }
    show t₁.router.onAll (ρ h) kinds (listener i) = _
    rw [hc₁.router]
    exact Router.onAll_rename s₁.router h kinds (listener i)

end Copies
end Session
end ScreenMarkup
