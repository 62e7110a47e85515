import ScreenMarkup.Proofs.Session.GrowthBuilding

/-!
# Intact references

Whatever a session refers to is on the screen and belongs where it is
referred to, at every point of every run. What was cleared away is heard of
no more: its handles stay without a widget, and no listener is left for them.
-/

set_option autoImplicit false

namespace ScreenMarkup

/-- Only these take widgets off the screen. -/
def Operation.clears : Operation → Bool
  | clear | init => true
  | _ => false

namespace Session

variable {s t : Session} {h : Handle} {kind : EventKind} {l : Listener} {o : Operation}

/-- Pages, tiles and keyboards are in their places, and listeners on what they serve. -/
structure Anchored (s : Session) : Prop where
  screen : s.screen.Sound
  nav : s.nav.Anchored s.screen
  listener : ∀ q ∈ s.router.subscriptions, ∀ e ∈ q.listeners, s.Serves q.widget e.2

theorem Anchored.grow (hs : s.Anchored) (ht : Grows s t) : t.Anchored where
  screen := (ht.moves.screen hs.screen).sound
  nav := ht.moves.anchored hs.screen hs.nav
  listener q hq e he := by
    rcases ht.listeners q hq e he with hnew | ⟨p, hp, hw, he⟩
    · exact hnew
    · exact ht.serves (hw ▸ hs.listener p hp e he)

/-! ## Runs -/

theorem edit_grows (s : Session) (h : Handle) (e : Edit) : Grows s (s.mapScreen (e.perform h)) := by
  cases e <;> exact mapScreen_grows s fun v => Screen.later_modify v h _

theorem perform_grows (s : Session) (ho : o.clears = false) : Grows s (o.perform s) := by
  cases o with
  | render markup => exact render_grows s markup
  | clear => cases ho
  | init => cases ho
  | setAppDir _ => exact Grows.aside rfl rfl rfl rfl
  | unhost => exact Grows.aside rfl rfl rfl rfl
  | takeSignals => exact Grows.aside rfl rfl rfl rfl
  | assign name value => exact assign_grows s name value
  | assignSilently name value => exact assignSilently_grows s name value
  | accept name value => exact accept_grows s name value
  | sync => exact sync_grows s
  | write _ _ _ => exact withStore_grows s _
  | reset _ => exact withStore_grows s _
  | resetAll => exact withStore_grows s _
  | setText id _ => exact onControl_grows s id fun _ => Screen.later_modify s.screen _ _
  | setSwitch id _ => exact onControl_grows s id fun _ => Screen.later_modify s.screen _ _
  | setSlider id _ => exact onControl_grows s id fun _ => Screen.later_modify s.screen _ _
  | setInput id _ => exact onControl_grows s id fun _ => Screen.later_modify s.screen _ _
  | setAttr id attr value => exact setAttr_grows s id attr value
  | draw id f => exact onCanvas_grows s id f
  | callOnclick id => exact callOnclick_grows s id
  | call name => exact call_grows s name
  | beginInput id => exact beginInput_grows s id
  | showPage path => exact showPage_grows s path
  | navigate href => exact navigate_grows s href
  | edit h e => exact edit_grows s h e
  | point p => exact mapScreen_grows s fun v => Screen.later_pointer v p
  | advance ms => exact mapScreen_grows s fun v => Screen.later_advance v ms
  | post _ _ => exact Grows.aside rfl rfl rfl rfl
  | handle h kind i =>
    simp only [Operation.perform]
    split
    · exact handle_grows s h kind _
    · exact Grows.refl s
  | dispatch h kind => exact dispatch_grows s h kind
  | process => exact process_grows s

theorem perform_clears (ho : o.clears = true) :
    (o.perform s).screen = s.screen.clean Handle.screen ∧ (o.perform s).nav = {} ∧
      (o.perform s).router = {} := by
  cases o <;> first | exact ⟨rfl, rfl, rfl⟩ | cases ho

namespace Anchored

theorem new (config : Config) : (Session.new config).Anchored where
  screen := (Screen.wellFormed_new config.screen).toSound
  nav := Navigation.Anchored.empty _
  listener _ hq := nomatch hq

theorem perform (hs : s.Anchored) (o : Operation) : (o.perform s).Anchored := by
  cases ho : o.clears with
  | false => exact hs.grow (perform_grows s ho)
  | true =>
    obtain ⟨hscreen, hnav, hrouter⟩ := perform_clears (s := s) ho
    refine ⟨?_, ?_, fun q hq => ?_⟩
    · rw [hscreen]
      exact hs.screen.clean Handle.screen
    · rw [hnav]
      exact Navigation.Anchored.empty _
    · rw [hrouter] at hq
      cases hq

theorem after (hs : s.Anchored) (os : List Operation) : (s.after os).Anchored := by
  induction os generalizing s with
  | nil => exact hs
  | cons o os ih => exact ih (hs.perform o)

/-- Whatever is done, a handle without a widget never gets one again. -/
theorem spent_perform (hs : s.Anchored) (hh : s.screen.Spent h) (o : Operation) :
    (o.perform s).screen.Spent h := by
  cases ho : o.clears with
  | false => exact hh.stands ((perform_grows s ho).moves.screen hs.screen)
  | true =>
    have hne : h ≠ Handle.screen := by
      rintro rfl
      rw [Screen.Spent, hs.screen.screen_live] at hh
      cases hh.1
    rw [(perform_clears ho).1]
    exact hs.screen.spent_clean hne (.inr hh)

theorem spent_after (hs : s.Anchored) (hh : s.screen.Spent h) (os : List Operation) :
    (s.after os).screen.Spent h := by
  induction os generalizing s with
  | nil => exact hh
  | cons o os ih => exact ih (hs.perform o) (hs.spent_perform hh o)

/-! ## What is heard -/

theorem live (hs : s.Anchored) (hw : s.WellFormed) (hl : s.Serves h l) :
    s.screen.isLive h = true := by
  have hcontrol {i : Nat} {kinds : List ControlKind} (hc : s.HasControl i kinds h) :
      s.screen.isLive h = true := by
    obtain ⟨c, hc, -, ho⟩ := hc
    exact (hw.fits c (List.mem_of_getElem? hc)).live ho
  cases l with
  | click i => exact hcontrol hl
  | switch i => exact hcontrol hl
  | slider i => exact hcontrol hl
  | input i => exact hcontrol hl
  | canvas i => exact hcontrol hl
  | keyboard =>
    obtain ⟨k, hk, rfl⟩ := List.mem_map.mp hl
    exact hs.screen.live_of_parent? (hs.nav.keyboard k hk).2
  | tileView g =>
    obtain ⟨k, hk, rfl⟩ := List.mem_map.mp (List.mem_of_getElem? hl)
    exact hs.nav.view k hk

/-- Events of a handle without a widget go nowhere. -/
theorem dispatch_dead (hs : s.Anchored) (hw : s.WellFormed) (hd : s.screen.isLive h = false)
    (kind : EventKind) : s.dispatch h kind = s := by
  have hnone : s.router.listeners h kind = [] := by
    refine List.eq_nil_iff_forall_not_mem.mpr fun l hl => ?_
    obtain ⟨q, hq, rfl, e, he, -⟩ := Router.mem_listeners hl
    rw [hs.live hw (hs.listener q hq e he)] at hd
    cases hd
  rw [Session.dispatch, hnone]
  rfl

end Anchored

/-! ## The whole -/

/-- Every handle that the session keeps names a widget, in its place, and every listener is on a
widget of what it serves. -/
structure Intact (s : Session) : Prop where
  control : ∀ c ∈ s.controls, ∀ h, c.Owns h → s.screen.isLive h = true
  page : ∀ p ∈ s.nav.pages, s.screen.isLive p.widget = true
  view : ∀ g ∈ s.nav.groups, s.screen.isLive g.view = true
  tile : ∀ g ∈ s.nav.groups, ∀ p ∈ g.pages,
    s.screen.isLive p.widget = true ∧ s.screen.parent? p.widget = some g.view
  dots : ∀ g ∈ s.nav.groups, ∀ d, g.dots = some d → s.screen.isLive d = true
  keyboard : ∀ k ∈ s.nav.keyboards, s.screen.isLive k.2 = true ∧
    s.nav.isPage k.1 = true ∧ s.screen.parent? k.2 = some k.1
  oneKeyboard : (s.nav.keyboards.map (·.1)).Nodup
  listener : ∀ q ∈ s.router.subscriptions, ∀ e ∈ q.listeners, s.Serves q.widget e.2

theorem Anchored.intact (hs : s.Anchored) (hw : s.WellFormed) : s.Intact where
  control c hc _ ho := (hw.fits c hc).live ho
  page := hs.nav.page
  view := hs.nav.view
  tile g hg p hp :=
    have hparent := hs.nav.tile g hg p hp
    ⟨hs.screen.live_of_parent? hparent, hparent⟩
  dots g hg d hd := Screen.isLive_of_kind? (hw.nav.dots g hg d hd)
  keyboard k hk :=
    have hkeyboard := hs.nav.keyboard k hk
    ⟨hs.screen.live_of_parent? hkeyboard.2, hkeyboard⟩
  oneKeyboard := hs.nav.single
  listener := hs.listener

/-- The references of a session are intact at every point of every run. Clearing it leaves no
listener and no event, and whatever is done next, what was there before is gone for good, and events
of it change nothing and are told to nobody. -/
theorem references_intact (config : Config) (os : List Operation) :
    let s := (new config).after os
    s.Intact ∧ s.clear.router = {} ∧
    (∀ h kind, s.clear.dispatch h kind = s.clear ∧ s.clear.fire h kind = s.clear) ∧
    ∀ h, s.screen.isLive h = true → h ≠ Handle.screen → ∀ later,
      let t := s.clear.after later
      t.screen.isLive h = false ∧ ∀ kind, t.dispatch h kind = t := by
  intro s
  have hs : s.Anchored := (Anchored.new config).after os
  have hw : s.WellFormed := (wellFormed_new config).after os
  refine ⟨hs.intact hw, rfl, fun h kind => ⟨rfl, rfl⟩, fun h hl hh later => ?_⟩
  have hclear : s.clear.Anchored := hs.perform .clear
  have hspent := hclear.spent_after (hs.screen.spent_clean hh (.inl hl)) later
  exact ⟨hspent.1, (hclear.after later).dispatch_dead (hw.clear.after later) hspent.1⟩

/-- A button that was cleared away is heard no more, though another took its place. -/
theorem references_intact_replaced_button :
    let s := (new {}).after [.render "<button id='b' onclick='f'/>"]
    let t := s.clear.after [.render "<button id='c' onclick='g'/>"]
    (s.dispatch ⟨1, 1⟩ .clicked).signals = [.call "f"] ∧
      (t.dispatch ⟨1, 2⟩ .clicked).signals = [.call "g"] ∧ s.screen.isLive ⟨1, 1⟩ = true ∧
      t.screen.isLive ⟨1, 1⟩ = false ∧ t.dispatch ⟨1, 1⟩ .clicked = t := by
  extract_lets s t
  have hlive : s.screen.isLive ⟨1, 1⟩ = true := by decide +kernel
  obtain ⟨hdead, hdispatch⟩ := (references_intact {} [.render "<button id='b' onclick='f'/>"]).2.2.2
    ⟨1, 1⟩ hlive (by decide) [.render "<button id='c' onclick='g'/>"]
  exact ⟨by decide +kernel, by decide +kernel, hlive, hdead, hdispatch .clicked⟩

end Session
end ScreenMarkup
