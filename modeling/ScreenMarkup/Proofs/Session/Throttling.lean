import ScreenMarkup.Proofs.Session.Hearing
import ScreenMarkup.Proofs.Session.Rendering
import ScreenMarkup.Proofs.Session.WritePaths

/-!
# Dragged sliders

While a slider is dragged it reports many changes, of which only those a least
time apart are let through to its variable. When it is released, the variable
gets its value in any case, and the host is told.
-/

set_option autoImplicit false

namespace ScreenMarkup

/-! ## Steps of a drag -/

/-- What happens to a slider: it reports a change or its release, it is moved, or time goes by. -/
inductive SliderStep where
  | change
  | release
  | move (value : Int)
  | wait (ms : Nat)
deriving DecidableEq

namespace SliderStep

def perform (h : Handle) (s : Session) : SliderStep → Session
  | change => s.dispatch h .valueChanged
  | release => s.dispatch h .released
  | move value => s.mapScreen (·.setValue h value)
  | wait ms => s.advance ms

/-- The times at which changes are let through: those a least time after all times so far. -/
def passings (throttle : Nat) (times : List Nat) (now : Nat) : List SliderStep → List Nat
  | [] => times
  | change :: steps =>
    passings throttle (if ∀ τ ∈ times, τ + throttle ≤ now then times ++ [now] else times) now steps
  | wait ms :: steps => passings throttle times (now + ms) steps
  | _ :: steps => passings throttle times now steps

end SliderStep

/-- The times lie at least so far apart. -/
def Spaced (throttle : Nat) (times : List Nat) : Prop :=
  times.Pairwise fun τ υ => τ + throttle ≤ υ

/-- What is far enough from the last time is far enough from all. -/
theorem Spaced.all_iff {throttle now : Nat} {times : List Nat} (ht : Spaced throttle times) :
    (∀ τ ∈ times, τ + throttle ≤ now) ↔
      ∀ last, times.getLast? = some last → last + throttle ≤ now := by
  constructor
  · exact fun hall last hlast => hall last (List.mem_of_getLast? hlast)
  · intro hlast τ hτ
    rcases List.eq_nil_or_concat times with rfl | ⟨earlier, last, rfl⟩
    · cases hτ
    · rw [List.concat_eq_append] at ht hlast hτ
      have hnow := hlast last List.getLast?_concat
      rcases List.mem_append.mp hτ with hτ | hτ
      · have hbefore := (List.pairwise_append.mp ht).2.2 τ hτ last (List.mem_singleton.mpr rfl)
        omega
      · exact List.mem_singleton.mp hτ ▸ hnow

theorem Spaced.concat {throttle now : Nat} {times : List Nat} (ht : Spaced throttle times)
    (hnow : ∀ τ ∈ times, τ + throttle ≤ now) : Spaced throttle (times ++ [now]) :=
  List.pairwise_append.mpr ⟨ht, List.pairwise_singleton _ _, fun τ hτ _ hυ =>
    List.mem_singleton.mp hυ ▸ hnow τ hτ⟩

/-- The host is told of a value that a control gave to a variable. -/
def Signal.isStateChange : Signal → Bool
  | .stateChanged _ _ => true
  | _ => false

/-- A value in range is read back from its text. -/
theorem WidgetContent.InRange.leadingInt_text {C : WidgetContent} (hr : C.InRange) :
    Numeric.leadingInt (Value.intText C.value).toList = C.value :=
  Value.leadingInt_intText (Int.le_trans hr.low hr.value.1) (Int.le_trans hr.value.2 hr.high)

/-! ## Values and the clock -/

namespace Screen

theorem clock_modify (s : Screen) (h : Handle) (f : Widget → Widget) :
    (s.modify h f).clock = s.clock := by
  unfold modify
  split <;> rfl

theorem value_eq {s : Screen} {h : Handle} {w : Widget} (hw : s.widget? h = some w) :
    s.value h = w.value := by
  rw [value, hw]
  rfl

theorem steps_clock : Steps fun s t => t.clock = s.clock where
  refl _ := rfl
  trans h₁ h₂ := h₂.trans h₁
  modify s h f _ := clock_modify s h f

end Screen

namespace Session

variable {s t : Session} {c : Control} {i : Nat} {h : Handle} {v : String}

theorem accept_clock (s : Session) (name value : String) :
    (s.accept name value).screen.clock = s.screen.clock :=
  Screen.steps_clock.foldl (fun v c => Refresh.control_steps Screen.steps_clock _ c v) _ _

/-! ## New sliders -/

/-- A slider of a rendered document was not let through yet, and its value lies in its range. -/
theorem render_slider (hs : s.WellFormed) (markup : String) (hi : s.controls.length ≤ i)
    (hc : (s.render markup).controls[i]? = some c) (hk : c.kind = .slider) :
    c.lastUpdate = none ∧
      ∃ w, (s.render markup).screen.widget? c.obj = some w ∧ w.content.InRange := by
  have hprepared (hc : (s.prepare markup).controls[i]? = some c) : c.lastUpdate = none ∧
      ∃ w, (s.prepare markup).screen.widget? c.obj = some w ∧ w.content.InRange := by
    obtain ⟨head, store, sheet, u, v, hl, hb, he⟩ := prepare_spec hs markup
    obtain ⟨pages, hpages, hpage⟩ := hl.controls
    obtain ⟨new, hnew, -, hbuilt⟩ := hb.controls
    have hcontrols : v.controls = s.controls ++ (pages ++ new) := by
      rw [hnew, hpages, List.append_assoc]
    rw [he] at hc ⊢
    have hin : c ∈ pages ++ new := by
      have hlater : (pages ++ new)[i - s.controls.length]? = some c := by
        rw [← List.getElem?_append_right hi, ← hcontrols]
        exact hc
      exact List.mem_of_getElem? hlater
    rcases List.mem_append.mp hin with hin | hin
    · rw [hpage c hin] at hk
      cases hk
    · obtain ⟨hidle, w, hw, hr⟩ := (hbuilt c hin).slider hk
      obtain ⟨-, hstack⟩ := (hb.wellFormed hl.wellFormed).screen.extends_stack v.controls
      exact ⟨hidle, w, (hstack c.obj).trans hw, hr⟩
  rw [render_eq] at hc ⊢
  rcases showFirst_spec (hs.prepare markup) with ⟨he, -⟩ | ⟨-, m, x, hd, he⟩
  · rw [he] at hc ⊢
    exact hprepared hc
  · rw [he] at hc ⊢
    obtain ⟨hidle, w, hw, hr⟩ := hprepared hc
    have hpage : c.kind ≠ .page := by
      rw [hk]
      nofun
    obtain ⟨x, hx, hsame⟩ := (hs.prepare markup).steer_content (List.mem_of_getElem? hc) hpage
      c.owns_obj hd.steers hw
    exact ⟨hidle, x, hx, hsame ▸ hr⟩

/-! ## Sliders that are dragged -/

/-- The session after some steps of a drag, in order. -/
def dragged (s : Session) (h : Handle) (steps : List SliderStep) : Session :=
  steps.foldl (SliderStep.perform h) s

/-- The time of a change is noted. -/
def stamped (s : Session) (i : Nat) : Session :=
  { s with controls := s.controls.modify i ({ · with lastUpdate := some s.screen.clock }) }

/-- The variable of a slider gets its value. -/
def sent (s : Session) (c : Control) : Session :=
  match c.bind with
  | some v => s.accept v (Value.intText (s.screen.value c.obj))
  | none => s

/-- A change that is let through is noted and reaches the variable. -/
def letThrough (s : Session) (i : Nat) (c : Control) : Session := (s.stamped i).sent c

theorem sent_clock (s : Session) (c : Control) :
    (s.sent c).screen.clock = s.screen.clock := by
  unfold sent
  split
  · exact accept_clock s _ _
  · rfl

/-- To send the value of a slider to its variable does not move the slider. -/
theorem sent_spec {w : Widget} (hs : s.WellFormed) (hc : c ∈ s.controls) (hk : c.kind = .slider)
    (hw : s.screen.widget? c.obj = some w) (hr : w.content.InRange) :
    (s.sent c).controls = s.controls ∧ (s.sent c).config = s.config ∧
      ∃ x, (s.sent c).screen.widget? c.obj = some x ∧ x.value = w.value ∧ x.content.InRange := by
  unfold sent
  cases hb : c.bind with
  | none => exact ⟨rfl, rfl, w, hw, rfl, hr⟩
  | some v =>
    refine ⟨rfl, rfl, ?_⟩
    have hx := (accept_redraws hs v (Value.intText (s.screen.value c.obj))).widget c.obj
    rw [hw, Option.map_some, Controls.each_of_owns hs.apart hc c.owns_obj] at hx
    have hread : Numeric.leadingInt (Value.intText w.value).toList = w.value := hr.leadingInt_text
    have hshown := Screen.value_eq hw
    have hvalue : (Refresh.redraw (s.refreshAfter v (Value.intText (s.screen.value c.obj))
        (Value.intText (s.screen.value c.obj))) c c.obj w).value = w.value := by
      simp [Refresh.redraw, Refresh.valueFor, refreshAfter, hb, hk, hshown, hread, Widget.offer]
    refine ⟨_, hx, hvalue, hr.low, hr.high, ?_⟩
    show w.low ≤ (Refresh.redraw _ c c.obj w).value ∧ (Refresh.redraw _ c c.obj w).value ≤ _
    rw [hvalue]
    exact hr.value

/-- The slider was let through at these times, and its value lies in its range. -/
structure Dragged (i : Nat) (c : Control) (throttle : Nat) (times : List Nat) (s : Session) :
    Prop where
  attentive : s.Attentive
  control : s.controls[i]? = some { c with lastUpdate := times.getLast? }
  slider : c.kind = .slider
  config : s.config.sliderThrottle = throttle
  shown : ∃ w, s.screen.widget? c.obj = some w ∧ w.content.InRange
  spaced : Spaced throttle times
  past : ∀ τ ∈ times, τ ≤ s.screen.clock

namespace Dragged

variable {throttle : Nat} {times : List Nat}

/-- Nothing else than its own control hears of a slider. -/
theorem dispatch_eq (hs : s.Dragged i c throttle times) {kind : EventKind}
    (hkind : kind = .valueChanged ∨ kind = .released) :
    s.dispatch c.obj kind = s.onSlider i { c with lastUpdate := times.getLast? } kind := by
  have hhears : (kind, Listener.slider i) ∈ c.kind.hears i := by
    rw [hs.slider]
    rcases hkind with rfl | rfl
    · exact List.mem_cons_self
    · exact List.mem_cons_of_mem _ List.mem_cons_self
  rw [dispatch, hs.attentive.listeners hs.control hhears]
  simp only [List.foldl_cons, List.foldl_nil, handle, hs.control]

theorem isThrottled_iff (hs : s.Dragged i c throttle times) :
    s.isThrottled { c with lastUpdate := times.getLast? } = true ↔
      ¬ ∀ τ ∈ times, τ + throttle ≤ s.screen.clock := by
  rw [hs.spaced.all_iff]
  unfold isThrottled
  cases hlast : times.getLast? with
  | none => simp
  | some last =>
    have hpast := hs.past last (List.mem_of_getLast? hlast)
    simp only [decide_eq_true_eq, Option.some.injEq, forall_eq', hs.config]
    omega

/-- A change is let through exactly if it comes late enough, and else it is ignored. -/
theorem change_eq (hs : s.Dragged i c throttle times) :
    s.dispatch c.obj .valueChanged =
      if ∀ τ ∈ times, τ + throttle ≤ s.screen.clock then s.letThrough i c else s := by
  rw [hs.dispatch_eq (.inl rfl)]
  dsimp only [onSlider]
  split
  · next hp => rw [if_neg (hs.isThrottled_iff.mp hp)]
  · next hp =>
    rw [hs.isThrottled_iff, not_not] at hp
    rw [if_pos hp]
    rfl

theorem stamped_control (hs : s.Dragged i c throttle times) :
    (s.stamped i).controls[i]? = some { c with lastUpdate := some s.screen.clock } := by
  show (s.controls.modify i _)[i]? = _
  rw [List.getElem?_modify_eq, hs.control]
  rfl

theorem stamped_wellFormed (hs : s.WellFormed) (i : Nat) : (s.stamped i).WellFormed :=
  (Keeps.spare hs (t := s.stamped i) (Screen.Spares.refl hs.screen)
    (wiring_modify (f := ({ · with lastUpdate := some s.screen.clock })) (fun _ => rfl) _ i)
    rfl rfl).wellFormed

theorem letThrough (hs : s.Dragged i c throttle times)
    (hnow : ∀ τ ∈ times, τ + throttle ≤ s.screen.clock) :
    (s.letThrough i c).Dragged i c throttle (times ++ [s.screen.clock]) := by
  have hattentive : (s.letThrough i c).Attentive := by
    have he := hs.change_eq
    rw [if_pos hnow] at he
    exact he ▸ hs.attentive.perform (.dispatch c.obj .valueChanged)
  obtain ⟨w, hw, hr⟩ := hs.shown
  obtain ⟨hcontrols, hconfig, x, hx, -, hr⟩ :=
    sent_spec (stamped_wellFormed hs.attentive.wellFormed i)
      (List.mem_of_getElem? hs.stamped_control) hs.slider hw hr
  refine ⟨hattentive, ?_, hs.slider, ?_, ⟨x, hx, hr⟩, hs.spaced.concat hnow, fun τ hτ => ?_⟩
  · rw [List.getLast?_concat, ← hs.stamped_control]
    exact congrArg (·[i]?) hcontrols
  · exact (congrArg Config.sliderThrottle hconfig).trans hs.config
  · refine Nat.le_trans ?_ (Nat.le_of_eq (sent_clock (s.stamped i) c).symm)
    rcases List.mem_append.mp hτ with hτ | hτ
    · exact hs.past τ hτ
    · exact Nat.le_of_eq (List.mem_singleton.mp hτ)

/-! ### Releases -/

theorem tell_eq (s : Session) (signal : Signal) :
    s.tell signal = { s with signals := s.signals ++ if s.hosted then [signal] else [] } := by
  unfold tell
  split
  · rfl
  · rw [List.append_nil]

theorem tellIf_eq (s : Session) (function : String) (signal : String → Signal) :
    ∃ told, (∀ x ∈ told, x = signal function) ∧
      s.tellIf function signal = { s with signals := s.signals ++ told } := by
  unfold tellIf
  split
  · exact ⟨[], nofun, by rw [List.append_nil]⟩
  · refine ⟨_, fun x hx => ?_, tell_eq s _⟩
    split at hx
    · exact List.mem_singleton.mp hx
    · cases hx

/-- A release reaches the variable, and the host is told of this one change. -/
theorem release_eq (hs : s.Dragged i c throttle times) :
    ∃ told, s.dispatch c.obj .released = { s.sent c with signals := s.signals ++ told } ∧
      told.filter Signal.isStateChange = if s.hosted then
        c.bind.toList.map (.stateChanged · (Value.intText (s.screen.value c.obj))) else [] := by
  rw [hs.dispatch_eq (.inr rfl)]
  show ∃ told, (s.report _ _).tellIf c.actions.onchange .call = _ ∧ _
  obtain ⟨called, hcalled, he⟩ := tellIf_eq (s.report { c with lastUpdate := times.getLast? }
    (Value.intText (s.screen.value c.obj))) c.actions.onchange .call
  have hnone : called.filter Signal.isStateChange = [] := by
    rw [List.filter_eq_nil_iff]
    intro x hx
    rw [hcalled x hx]
    exact Bool.false_ne_true
  rw [he]
  unfold report sent
  cases c.bind with
  | none => exact ⟨called, rfl, by simp [hnone]⟩
  | some v =>
    generalize Value.intText (s.screen.value c.obj) = value
    let noticed := (s.store.setText v value false).2.notices.map fun n =>
      Signal.notified n.1 n.2.text
    have hsilent : noticed.filter Signal.isStateChange = [] := by
      rw [List.filter_eq_nil_iff]
      intro x hx
      obtain ⟨n, -, rfl⟩ := List.mem_map.mp hx
      exact Bool.false_ne_true
    have hsignals : (s.accept v value).signals = s.signals ++ noticed := rfl
    dsimp only
    rw [tell_eq, hsignals]
    refine ⟨noticed ++ (if s.hosted then [.stateChanged v value] else []) ++ called, ?_, ?_⟩
    · simp only [List.append_assoc]
      rfl
    · rw [List.filter_append, List.filter_append, hsilent, hnone]
      cases s.hosted <;> rfl

theorem release (hs : s.Dragged i c throttle times) :
    (s.dispatch c.obj .released).Dragged i c throttle times := by
  have hattentive := hs.attentive.perform (.dispatch c.obj .released)
  obtain ⟨told, he, -⟩ := hs.release_eq
  obtain ⟨w, hw, hr⟩ := hs.shown
  obtain ⟨hcontrols, hconfig, x, hx, -, hr⟩ :=
    sent_spec hs.attentive.wellFormed (List.mem_of_getElem? hs.control) hs.slider hw hr
  rw [Operation.perform, he] at hattentive
  rw [he]
  refine ⟨hattentive, ?_, hs.slider, ?_, ⟨x, hx, hr⟩, hs.spaced, fun τ hτ => ?_⟩
  · exact (congrArg (·[i]?) hcontrols).trans hs.control
  · exact (congrArg Config.sliderThrottle hconfig).trans hs.config
  · exact Nat.le_trans (hs.past τ hτ) (Nat.le_of_eq (sent_clock s c).symm)

/-- After a release the slider stands where it stood, and a bound text or integer reads as its
value. -/
theorem release_spec (hs : s.Dragged i c throttle times) (hb : c.bind = some v) :
    let t := s.dispatch c.obj .released
    t.screen.value c.obj = s.screen.value c.obj ∧
    (s.store.typeOf v = .string ∨ s.store.typeOf v = .int →
      t.store.int v = t.screen.value c.obj) := by
  intro t
  obtain ⟨told, he, -⟩ := hs.release_eq
  obtain ⟨w, hw, hr⟩ := hs.shown
  obtain ⟨-, -, x, hx, hvalue, -⟩ :=
    sent_spec hs.attentive.wellFormed (List.mem_of_getElem? hs.control) hs.slider hw hr
  have hbefore := Screen.value_eq hw
  have hafter : t.screen.value c.obj = w.value := by
    rw [show t.screen = (s.sent c).screen by rw [show t = _ from he]]
    exact (Screen.value_eq hx).trans hvalue
  refine ⟨hafter.trans hbefore.symm, fun htype => ?_⟩
  have hread : Numeric.leadingInt (Value.intText w.value).toList = w.value := hr.leadingInt_text
  have hstore : t.store = s.store.record v (Value.intText w.value) := by
    rw [show t.store = (s.sent c).store by rw [show t = _ from he], sent, hb, hbefore]
    exact accept_store s v _
  rw [hstore, Store.int_record htype, hafter]
  rcases htype with htype | htype <;> rw [htype]
  · exact hread
  · exact hread

/-! ### Runs -/

theorem move (hs : s.Dragged i c throttle times) (value : Int) :
    (s.mapScreen (·.setValue c.obj value)).Dragged i c throttle times := by
  obtain ⟨w, hw, hr⟩ := hs.shown
  refine ⟨hs.attentive.perform (.edit c.obj (.drag value)), hs.control, hs.slider, hs.config,
    ⟨w.setValue value, ?_, ?_⟩, hs.spaced, ?_⟩
  · show (s.screen.modify c.obj _).widget? c.obj = _
    rw [Screen.widget?_modify, if_pos rfl, hw, Option.map_some]
  · exact ⟨hr.low, hr.high, Widget.clampValue_mem _ _ _⟩
  · exact (Screen.clock_modify s.screen c.obj (·.setValue value)).symm ▸ hs.past

theorem wait (hs : s.Dragged i c throttle times) (ms : Nat) :
    (s.advance ms).Dragged i c throttle times where
  attentive := hs.attentive.perform (.advance ms)
  control := hs.control
  slider := hs.slider
  config := hs.config
  shown := hs.shown
  spaced := hs.spaced
  past τ hτ := Nat.le_add_right_of_le (hs.past τ hτ)

/-- A change is let through or ignored. -/
theorem change (hs : s.Dragged i c throttle times) :
    (s.dispatch c.obj .valueChanged).Dragged i c throttle
      (if ∀ τ ∈ times, τ + throttle ≤ s.screen.clock then times ++ [s.screen.clock] else times) := by
  rw [hs.change_eq]
  split
  · next hnow => exact hs.letThrough hnow
  · exact hs

/-- After any steps the slider was let through at the times that the steps tell. -/
theorem dragged (hs : s.Dragged i c throttle times) (steps : List SliderStep) :
    (s.dragged c.obj steps).Dragged i c throttle
      (SliderStep.passings throttle times s.screen.clock steps) := by
  induction steps generalizing s times with
  | nil => exact hs
  | cons step steps ih =>
    cases step with
    | change =>
      have hclock : (s.dispatch c.obj .valueChanged).screen.clock = s.screen.clock := by
        rw [hs.change_eq]
        split
        · exact sent_clock (s.stamped i) c
        · rfl
      have hnext := ih hs.change
      rwa [hclock] at hnext
    | release =>
      have hclock : (s.dispatch c.obj .released).screen.clock = s.screen.clock := by
        obtain ⟨told, he, -⟩ := hs.release_eq
        rw [he]
        exact sent_clock s c
      have hnext := ih hs.release
      rwa [hclock] at hnext
    | move value =>
      have hclock := Screen.clock_modify s.screen c.obj (·.setValue value)
      have hnext := ih (hs.move value)
      rwa [show (s.mapScreen (·.setValue c.obj value)).screen.clock = _ from hclock] at hnext
    | wait ms => exact ih (hs.wait ms)

end Dragged

/-- Whatever was done before, and however a slider of a rendered document is dragged: the changes
that are let through lie at least the least time apart, a change that comes late enough after all of
them is let through, and any other changes nothing. A release leaves the slider where it is, a text
or integer that is bound to it reads as its value, and the host is told of this one change. -/
theorem slider_throttled (config : Config) (history : List Operation) (markup : String) (i : Nat)
    (c : Control) (steps : List SliderStep) :
    let s := (new config).after history
    let t := s.render markup
    s.controls.length ≤ i → t.controls[i]? = some c → c.kind = .slider →
    let times := SliderStep.passings t.config.sliderThrottle [] t.screen.clock steps
    let u := t.dragged c.obj steps
    Spaced t.config.sliderThrottle times ∧
    u.dispatch c.obj .valueChanged =
      (if ∀ τ ∈ times, τ + t.config.sliderThrottle ≤ u.screen.clock then u.letThrough i c else u) ∧
    ∀ v, c.bind = some v →
      let w := u.dispatch c.obj .released
      w.screen.value c.obj = u.screen.value c.obj ∧
      (u.store.typeOf v = .string ∨ u.store.typeOf v = .int →
        w.store.int v = w.screen.value c.obj) ∧
      ∃ told, w.signals = u.signals ++ told ∧
        told.filter Signal.isStateChange =
          if u.hosted then [.stateChanged v (Value.intText (w.screen.value c.obj))] else [] := by
  intro s t hi hc hk times u
  have hs : s.Attentive := (Attentive.new config).after history
  obtain ⟨hidle, hshown⟩ := render_slider hs.wellFormed markup hi hc hk
  have hstart : t.Dragged i c t.config.sliderThrottle [] :=
    { attentive := hs.perform (.render markup)
      control := by
        rw [hc]
        cases c
        subst hidle
        rfl
      slider := hk
      config := rfl
      shown := hshown
      spaced := List.Pairwise.nil
      past := nofun }
  have hu : u.Dragged i c t.config.sliderThrottle times := hstart.dragged steps
  refine ⟨hu.spaced, hu.change_eq, fun v hb => ?_⟩
  intro w
  obtain ⟨hvalue, hread⟩ := hu.release_spec hb
  obtain ⟨told, he, htold⟩ := hu.release_eq
  refine ⟨hvalue, hread, told, congrArg Session.signals he, ?_⟩
  rw [htold, hb, show w.screen.value c.obj = _ from hvalue]
  rfl

/-- A second change comes too early, but the release brings its value to the variable. -/
theorem slider_throttled_until_release :
    let t := ((new {}).after []).render
      "<state><int name='n' default='0'/></state><slider id='s' bind='n'/>"
    let u := t.dragged ⟨1, 1⟩ [.move 30, .change, .wait 50, .move 40]
    u.dispatch ⟨1, 1⟩ .valueChanged = u ∧ u.store.int "n" = 30 ∧
      (u.dispatch ⟨1, 1⟩ .released).store.int "n" = 40 := by
  intro t u
  have hsome : t.controls[0]?.isSome = true := by decide +kernel
  obtain ⟨c, hc⟩ := Option.isSome_iff_exists.mp hsome
  have hwired : (t.controls[0]?.map fun c => (c.kind, c.obj, c.bind)) =
      some (.slider, ⟨1, 1⟩, some "n") := by decide +kernel
  rw [hc, Option.map_some, Option.some.injEq, Prod.mk.injEq, Prod.mk.injEq] at hwired
  obtain ⟨hk, hobj, hb⟩ := hwired
  obtain ⟨-, hchange, hrelease⟩ := slider_throttled {} []
    "<state><int name='n' default='0'/></state><slider id='s' bind='n'/>" 0 c
    [.move 30, .change, .wait 50, .move 40] (Nat.zero_le _) hc hk
  obtain ⟨hvalue, hread, -⟩ := hrelease "n" hb
  rw [hobj] at hchange hvalue hread
  refine ⟨hchange.trans (if_neg (by decide +kernel)), by decide +kernel, ?_⟩
  rw [hread (by decide +kernel), hvalue]
  decide +kernel

end Session
end ScreenMarkup
