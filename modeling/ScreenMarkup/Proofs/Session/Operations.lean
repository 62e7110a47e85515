import ScreenMarkup.Proofs.Session.Handling
import ScreenMarkup.Session.Operation

/-!
# Runs of operations

Every operation keeps the session well formed, and all but a few leave it to
the navigation which page is shown. Both go over to runs of any length.
-/

set_option autoImplicit false

namespace ScreenMarkup

namespace Screen

variable {s t : Screen}

theorem WellFormed.retains_modify (hs : s.WellFormed) {h : Handle} {f : Widget → Widget}
    (hf : ∀ w : Widget, w.SameKind (f w)) : s.Retains (s.modify h f) :=
  (touches_modify (P := Widget.SameKind) (h := h) (fun _ => rfl) hf).retains (fun _ _ p => p) hs

/-- The pointer and the clock are no matter of the widgets. -/
theorem WellFormed.spares_setPointer (hs : s.WellFormed) (p : Offset) :
    s.Spares (s.setPointer p) :=
  Touches.shows_spares (H := fun _ => False)
    { shape := rfl
      free := rfl
      size := rfl
      widget := (Touches.refl (P := Widget.SameShow) (H := fun _ => False)
        (fun _ => ⟨rfl, rfl⟩) s).widget
      frame := fun _ _ => rfl } hs

theorem WellFormed.spares_advance (hs : s.WellFormed) (ms : Nat) : s.Spares (s.advance ms) :=
  Touches.shows_spares (H := fun _ => False)
    { shape := rfl
      free := rfl
      size := rfl
      widget := (Touches.refl (P := Widget.SameShow) (H := fun _ => False)
        (fun _ => ⟨rfl, rfl⟩) s).widget
      frame := fun _ _ => rfl } hs

end Screen

namespace Session

variable {s t : Session} {o : Operation}

theorem wellFormed_new (config : Config) : (Session.new config).WellFormed where
  screen := Screen.wellFormed_new config.screen
  fits c hc := by simp [new] at hc
  apart := List.Pairwise.nil
  nav := Navigation.WellFormed.empty _
  keyboard r hr := by simp [new] at hr

theorem WellFormed.clear (hs : s.WellFormed) : s.clear.WellFormed where
  screen := hs.screen.clean Handle.screen
  fits c hc := by simp [Session.clear] at hc
  apart := List.Pairwise.nil
  nav := Navigation.WellFormed.empty _
  keyboard r hr := by simp [Session.clear] at hr

theorem WellFormed.init (hs : s.WellFormed) : s.init.WellFormed :=
  ⟨hs.clear.screen, hs.clear.fits, hs.clear.apart, hs.clear.nav, hs.clear.keyboard⟩

theorem attrChange?_retains {screen t : Screen} (hs : screen.WellFormed) {size : Size}
    {c : Control} {attr value : String} (he : attrChange? size c attr value screen = some t) :
    screen.Retains t := by
  unfold attrChange? at he
  extract_lets h r at he
  split at he
  case h_1 =>
    cases he
    exact ((Screen.setBackground_restyles _ _ _).preserves hs).retains
  case h_2 =>
    cases he
    exact ((Screen.applyStyle_restyles _ _ _).preserves hs).retains
  case h_3 =>
    cases he
    exact hs.retains_modify fun _ => rfl
  case h_4 =>
    cases he
    exact hs.retains_modify fun _ => rfl
  case h_5 =>
    cases he
    exact ((Screen.setPos_restyles _ _ _ _).preserves hs).retains
  case h_6 =>
    cases he
    exact ((Screen.setPos_restyles _ _ _ _).preserves hs).retains
  case h_7 =>
    cases he
    exact ((Screen.setSize_restyles _ _ _ _).preserves hs).retains
  case h_8 =>
    cases he
    exact ((Screen.setSize_restyles _ _ _ _).preserves hs).retains
  case h_9 =>
    rw [← Option.some.inj he]
    split
    · exact (hs.preserves_raise h).retains
    · split
      · exact (hs.preserves_moveTo h 0).retains
      · exact Screen.Retains.refl hs
  case h_10 => cases he

theorem WellFormed.setAttr (hs : s.WellFormed) (id attr value : String) :
    (s.setAttr id attr value).2.WellFormed := by
  unfold Session.setAttr
  split
  · exact hs
  · next c _ =>
    split
    · next t he => exact hs.retain (attrChange?_retains hs.screen he) rfl rfl rfl
    · exact hs

theorem onControl_keeps (hs : s.WellFormed) (id : String) {f : Control → Screen → Screen}
    (hf : ∀ c, s.screen.Spares (f c s.screen)) : Keeps s (s.onControl id f).2 := by
  unfold onControl
  split
  · next c _ => exact Keeps.mapScreen hs (f := f c) (hf c)
  · exact Keeps.refl hs

theorem onCanvas_keeps (hs : s.WellFormed) (id : String) (draw : Canvas → Canvas) :
    Keeps s (s.onCanvas id draw).2 := by
  unfold onCanvas
  split
  · exact Keeps.refl hs
  · next i _ =>
    split
    · exact Keeps.refl hs
    · next c _ =>
      have hpixels := (Screen.invalidate_restyles s.screen c.obj).spares hs.screen
      exact Keeps.spare hs hpixels
        (wiring_modify (f := fun c => { c with canvas := c.canvas.map draw }) (fun _ => rfl) _ i)
        rfl rfl

theorem edit_keeps (hs : s.WellFormed) (h : Handle) (e : Edit) :
    Keeps s (s.mapScreen (e.perform h)) := by
  refine Keeps.mapScreen hs (f := e.perform h) ?_
  cases e <;> exact hs.screen.spares_modify fun _ => ⟨rfl, rfl⟩

theorem callOnclick_keeps (hs : s.WellFormed) (id : String) : Keeps s (s.callOnclick id).2 := by
  unfold callOnclick
  split
  · exact tell_keeps hs _
  · exact Keeps.refl hs

theorem call_keeps (hs : s.WellFormed) (name : String) : Keeps s (s.call name).2 := by
  unfold call
  split
  · exact Keeps.refl hs
  · exact tell_keeps hs _

theorem perform_keeps (hs : s.WellFormed) (ho : o.keepsPages = true) : Keeps s (o.perform s) := by
  cases o with
  | render _ => cases ho
  | clear => cases ho
  | init => cases ho
  | setAttr _ _ _ => cases ho
  | setAppDir _ => exact Keeps.aside hs rfl rfl rfl rfl
  | unhost => exact Keeps.aside hs rfl rfl rfl rfl
  | takeSignals => exact Keeps.aside hs rfl rfl rfl rfl
  | assign name value => exact assign_keeps hs name value
  | assignSilently name value => exact assignSilently_keeps hs name value
  | accept name value => exact accept_keeps hs name value
  | sync => exact sync_keeps hs
  | write _ _ _ => exact withStore_keeps hs _
  | reset _ => exact withStore_keeps hs _
  | resetAll => exact withStore_keeps hs _
  | setText id _ =>
    exact onControl_keeps hs id fun _ => hs.screen.spares_modify fun _ => ⟨rfl, rfl⟩
  | setSwitch id _ =>
    exact onControl_keeps hs id fun _ => hs.screen.spares_modify fun _ => ⟨rfl, rfl⟩
  | setSlider id _ =>
    exact onControl_keeps hs id fun _ => hs.screen.spares_modify fun _ => ⟨rfl, rfl⟩
  | setInput id _ =>
    exact onControl_keeps hs id fun _ => hs.screen.spares_modify fun _ => ⟨rfl, rfl⟩
  | draw id f => exact onCanvas_keeps hs id f
  | callOnclick id => exact callOnclick_keeps hs id
  | call name => exact call_keeps hs name
  | beginInput id => exact beginInput_keeps hs id
  | showPage path => exact showPage_keeps hs path
  | navigate href => exact navigate_keeps hs href
  | edit h e => exact edit_keeps hs h e
  | point p => exact Keeps.mapScreen hs (f := (·.setPointer p)) (hs.screen.spares_setPointer p)
  | advance ms => exact Keeps.mapScreen hs (f := (·.advance ms)) (hs.screen.spares_advance ms)
  | post h kind => exact Keeps.aside hs rfl rfl rfl rfl
  | handle h kind i =>
    simp only [Operation.perform]
    split
    · next l hl =>
      exact handle_keeps hs kind fun he => hs.listener_kind (he ▸ List.mem_of_getElem? hl)
    · exact Keeps.refl hs
  | dispatch h kind => exact dispatch_keeps hs h kind
  | process => exact process_keeps hs

theorem WellFormed.perform (hs : s.WellFormed) (o : Operation) : (o.perform s).WellFormed := by
  by_cases ho : o.keepsPages = true
  · exact (perform_keeps hs ho).wellFormed
  · cases o with
    | render markup => exact hs.render markup
    | clear => exact hs.clear
    | init => exact hs.init
    | setAttr id attr value => exact hs.setAttr id attr value
    | _ => exact absurd rfl ho

theorem WellFormed.after (hs : s.WellFormed) (os : List Operation) : (s.after os).WellFormed := by
  induction os generalizing s with
  | nil => exact hs
  | cons o os ih => exact ih (hs.perform o)

theorem after_keeps (hs : s.WellFormed) {os : List Operation}
    (ho : ∀ o ∈ os, o.keepsPages = true) : Keeps s (s.after os) :=
  Keeps.foldl (fun _ o hs hm => perform_keeps hs (ho o hm)) hs

end Session
end ScreenMarkup
