import ScreenMarkup.Proofs.Event.Heard
import ScreenMarkup.Proofs.Navigation.Anchored
import ScreenMarkup.Proofs.Screen.References
import ScreenMarkup.Proofs.Session.Operations

/-!
# Listeners and their owners

A listener names what it serves by a position: a control, or a group. As a
session grows nothing loses its position, and a new listener stands on a
widget of what it serves. What reports changes hears its events from the
start, each of them once, and so does a keyboard. No handler of an event does
more than that.
-/

set_option autoImplicit false

namespace ScreenMarkup

open Screen (Later)
open Navigation (Moves)

namespace Refresh

variable {R : Screen → Screen → Prop} (hR : Screen.Steps R) (r : Refresh) (c : Control) (s : Screen)

include hR

theorem text_steps : R s (r.text c s) := by
  unfold text
  split
  · exact hR.refl s
  · extract_lets shown
    split
    · exact hR.modify s _ (f := (·.setSpans _)) fun _ => rfl
    · exact hR.setText s _ _

theorem classes_steps : R s (r.classes c s) := by
  unfold classes
  split
  · exact hR.refl s
  · extract_lets names h rect ruled placed
    have hcleared : R s (s.clearStyle h) :=
      hR.modify s h (f := ({ · with style := {} })) fun _ => rfl
    have hruled : R s ruled :=
      hR.trans hcleared ((hR.styling h).applyRules (s.clearStyle h) _ _ _ _ _)
    have hplaced : R ruled placed :=
      hR.trans ((hR.styling h).setPos ruled _ _) ((hR.styling h).setSize _ _ _)
    split
    · exact hR.trans (hR.trans hruled hplaced) ((hR.styling c.obj).applyStyle placed _)
    · exact hR.trans hruled hplaced

theorem bound_steps : R s (r.bound c s) := by
  unfold bound
  split
  · split
    · exact hR.modify s _ (f := ({ · with checked := _ })) fun _ => rfl
    · extract_lets v
      split
      · exact hR.refl s
      · exact hR.modify s _ (f := (·.setValue v)) fun _ => rfl
    · exact hR.setText s _ _
    · exact hR.refl s
  · exact hR.refl s

theorem visibility_steps : R s (r.visibility c s) :=
  hR.ite (hR.modify s _ (f := ({ · with hidden := _ })) fun _ => rfl)

theorem colors_steps : R s (r.colors c s) := by
  unfold colors
  extract_lets background
  have hbackground : R s background := hR.ite ((hR.styling c.target).applyStyles s _)
  exact hR.trans hbackground (hR.ite ((hR.styling c.obj).applyStyle background _))

/-- A refresh changes a widget in nothing but what steps change. -/
theorem control_steps : R s (r.control s c) :=
  hR.trans (hR.trans (hR.trans (text_steps hR r c s) (classes_steps hR r c _))
    (bound_steps hR r c _)) (hR.trans (visibility_steps hR r c _) (colors_steps hR r c _))

end Refresh

/-- These listeners report what a user does to a widget that may be bound. -/
def Listener.reports : Listener → Bool
  | .switch _ | .slider _ | .input _ => true
  | _ => false

/-- What a control at a position hears of its widget, if its kind reports changes. -/
def ControlKind.hears (i : Nat) : ControlKind → List (EventKind × Listener)
  | .switch => [(.valueChanged, .switch i)]
  | .slider => [(.valueChanged, .slider i), (.released, .slider i)]
  | .input => [(.valueChanged, .input i), (.focused, .input i), (.defocused, .input i)]
  | _ => []

/-- These events of a widget make a control of its kind hear what it has to hear. -/
def Control.Listens (c : Control) (h : Handle) (events : List EventKind)
    (listener : Nat → Listener) : Prop :=
  ∀ i, h = c.obj ∧ events.Nodup ∧ events.map (·, listener i) = c.kind.hears i ∨
    (listener i).reports = false ∧ c.kind.hears i = []

namespace Session

variable {s t u : Session} {h k : Handle} {l : Listener}

/-! ## What a listener serves -/

/-- The control at a position has the widget and is of one of the kinds. -/
def HasControl (s : Session) (i : Nat) (kinds : List ControlKind) (h : Handle) : Prop :=
  ∃ c, s.controls[i]? = some c ∧ c.kind ∈ kinds ∧ c.Owns h

/-- What the listener serves has the widget. -/
def Serves (s : Session) (h : Handle) : Listener → Prop
  | .click i => s.HasControl i [.button, .image] h
  | .switch i => s.HasControl i [.switch] h
  | .slider i => s.HasControl i [.slider] h
  | .input i => s.HasControl i [.input] h
  | .canvas i => s.HasControl i [.canvas] h
  | .keyboard => h ∈ s.nav.keyboards.map (·.2)
  | .tileView g => (s.nav.groups.map (·.view))[g]? = some h

theorem prefix_getElem? {α : Type} {as bs : List α} (hp : as <+: bs) {i : Nat} {a : α}
    (ha : as[i]? = some a) : bs[i]? = some a := by
  obtain ⟨hi, rfl⟩ := List.getElem?_eq_some_iff.mp ha
  exact List.prefix_iff_getElem?.mp hp i hi

theorem HasControl.mono {i : Nat} {kinds : List ControlKind} (hi : s.HasControl i kinds h)
    (hc : s.controls.map Control.wiring <+: t.controls.map Control.wiring) :
    t.HasControl i kinds h := by
  obtain ⟨c, hi, hk, ho⟩ := hi
  have hwired : (t.controls.map Control.wiring)[i]? = some c.wiring := by
    apply prefix_getElem? hc
    rw [List.getElem?_map, hi, Option.map_some]
  rw [List.getElem?_map, Option.map_eq_some_iff] at hwired
  obtain ⟨d, hd, hw⟩ := hwired
  rw [Control.wiring_eq hw] at hd
  exact ⟨_, hd, hk, ho⟩

/-! ## Who hears what -/

/-- What can be closed by a keyboard hears when it is. -/
def closing : List EventKind := [.ready, .cancel]

/-- Controls and keyboards hear their events. A handle of generation zero names no widget. -/
structure Tuned (s : Session) : Prop where
  served : ∀ q ∈ s.router.subscriptions, ∀ e ∈ q.listeners, s.Serves q.widget e.2
  once : s.router.Once Listener.reports
  control : ∀ i (c : Control), s.controls[i]? = some c → c.obj.generation ≠ 0 →
    ∀ e ∈ c.kind.hears i, s.router.Heard c.obj e.1 e.2
  keyboard : ∀ k ∈ s.nav.keyboards, k.2.generation ≠ 0 →
    ∀ kind ∈ closing, s.router.Heard k.2 kind .keyboard

theorem HasControl.lt {i : Nat} {kinds : List ControlKind} (hi : s.HasControl i kinds h) :
    i < s.controls.length := by
  obtain ⟨c, hi, -⟩ := hi
  exact (List.getElem?_eq_some_iff.mp hi).1

/-- Nobody listens for a position that is still free. -/
theorem not_serves_free {c : ControlKind} {i : Nat} (hi : s.controls.length ≤ i)
    {kind : EventKind} (hl : (kind, l) ∈ c.hears i) : ¬ s.Serves h l := by
  intro hs
  have hfree {kinds : List ControlKind} (hc : s.HasControl i kinds h) : False :=
    absurd hc.lt (Nat.not_lt.mpr hi)
  cases c <;> simp [ControlKind.hears] at hl
  · obtain ⟨-, rfl⟩ := hl
    exact hfree hs
  · obtain ⟨-, rfl⟩ | ⟨-, rfl⟩ := hl
    · exact hfree hs
    · exact hfree hs
  · obtain ⟨-, rfl⟩ | ⟨-, rfl⟩ | ⟨-, rfl⟩ := hl
    · exact hfree hs
    · exact hfree hs
    · exact hfree hs

theorem serves_mono (hv : Moves s.nav s.screen t.nav t.screen)
    (hc : s.controls.map Control.wiring <+: t.controls.map Control.wiring)
    (hl : s.Serves h l) : t.Serves h l := by
  cases l with
  | click i => exact HasControl.mono hl hc
  | switch i => exact HasControl.mono hl hc
  | slider i => exact HasControl.mono hl hc
  | input i => exact HasControl.mono hl hc
  | canvas i => exact HasControl.mono hl hc
  | keyboard => exact (hv.keyboards.map (·.2)).subset hl
  | tileView g => exact prefix_getElem? hv.views hl

theorem lt_of_getElem? {i : Nat} {c : Control} (hl : t.controls.length = s.controls.length)
    (hi : t.controls[i]? = some c) : i < s.controls.length :=
  hl ▸ (List.getElem?_eq_some_iff.mp hi).1

/-- If nothing goes, and what is new hears what it has to, then everything does. -/
theorem Tuned.grow (hs : s.Tuned) (hv : Moves s.nav s.screen t.nav t.screen)
    (hc : s.controls.map Control.wiring <+: t.controls.map Control.wiring)
    (hr : s.router.Keeps t.router)
    (hl : ∀ q ∈ t.router.subscriptions, ∀ e ∈ q.listeners, t.Serves q.widget e.2 ∨
      ∃ p ∈ s.router.subscriptions, p.widget = q.widget ∧ e ∈ p.listeners)
    (honce : t.router.Once Listener.reports)
    (hcontrol : ∀ i (c : Control), s.controls.length ≤ i → t.controls[i]? = some c →
      c.obj.generation ≠ 0 → ∀ e ∈ c.kind.hears i, t.router.Heard c.obj e.1 e.2)
    (hkeyboard : ∀ k ∈ t.nav.keyboards, k ∉ s.nav.keyboards → k.2.generation ≠ 0 →
      ∀ kind ∈ closing, t.router.Heard k.2 kind .keyboard) : t.Tuned where
  served q hq e he := by
    rcases hl q hq e he with hnew | ⟨p, hp, hw, he⟩
    · exact hnew
    · exact serves_mono hv hc (hw ▸ hs.served p hp e he)
  once := honce
  control i d hd hg e he := by
    by_cases hi : i < s.controls.length
    · have hwired := prefix_getElem? hc (i := i) (a := s.controls[i].wiring)
        (by rw [List.getElem?_map, List.getElem?_eq_getElem hi, Option.map_some])
      rw [List.getElem?_map, hd, Option.map_some] at hwired
      have hw := Option.some.inj hwired
      have hobj : d.obj = s.controls[i].obj := by
        show d.wiring.obj = _
        rw [hw]
        rfl
      have hkind : d.kind = s.controls[i].kind := by
        show d.wiring.kind = _
        rw [hw]
        rfl
      rw [hobj] at hg ⊢
      exact hr.heard _ _ _ (hs.control i _ (List.getElem?_eq_getElem hi) hg e (hkind ▸ he))
    · exact hcontrol i d (Nat.le_of_not_lt hi) hd hg e he
  keyboard k hk hg kind hkind := by
    by_cases hold : k ∈ s.nav.keyboards
    · exact hr.heard _ _ _ (hs.keyboard k hold hg kind hkind)
    · exact hkeyboard k hk hold hg kind hkind

/-! ## Growing -/

/-- Nothing that was there is gone, new listeners stand on what they serve, and what has to hear
something hears it. -/
structure Grows (s t : Session) : Prop where
  moves : Moves s.nav s.screen t.nav t.screen
  controls : s.controls.map Control.wiring <+: t.controls.map Control.wiring
  router : s.router.Keeps t.router
  listeners : ∀ q ∈ t.router.subscriptions, ∀ e ∈ q.listeners, t.Serves q.widget e.2 ∨
    ∃ p ∈ s.router.subscriptions, p.widget = q.widget ∧ e ∈ p.listeners
  tuned : s.Tuned → t.Tuned

namespace Grows

theorem serves (ht : Grows s t) (hl : s.Serves h l) : t.Serves h l :=
  serves_mono ht.moves ht.controls hl

theorem trans (h₁ : Grows s t) (h₂ : Grows t u) : Grows s u where
  moves := h₁.moves.trans h₂.moves
  controls := h₁.controls.trans h₂.controls
  router := h₁.router.trans h₂.router
  listeners q hq e he := by
    rcases h₂.listeners q hq e he with hnew | ⟨p, hp, hw, he⟩
    · exact .inl hnew
    · rcases h₁.listeners p hp e he with hnew | hold
      · exact .inl (hw ▸ h₂.serves hnew)
      · exact .inr (hw ▸ hold)
  tuned hs := h₂.tuned (h₁.tuned hs)

/-- No new listeners, controls or keyboards. -/
theorem move (hv : Moves s.nav s.screen t.nav t.screen)
    (hc : t.controls.map Control.wiring = s.controls.map Control.wiring)
    (hk : t.nav.keyboards = s.nav.keyboards)
    (hr : t.router.subscriptions = s.router.subscriptions) : Grows s t := by
  have hprefix : s.controls.map Control.wiring <+: t.controls.map Control.wiring :=
    hc ▸ List.prefix_refl _
  have hkeeps : s.router.Keeps t.router := Router.Keeps.of_eq hr
  have hlisteners : ∀ q ∈ t.router.subscriptions, ∀ e ∈ q.listeners, t.Serves q.widget e.2 ∨
      ∃ p ∈ s.router.subscriptions, p.widget = q.widget ∧ e ∈ p.listeners :=
    fun q hq _ he => .inr ⟨q, hr ▸ hq, rfl, he⟩
  refine ⟨hv, hprefix, hkeeps, hlisteners, fun hs => hs.grow hv hprefix hkeeps hlisteners
    (fun q hq => hs.once q (hr ▸ hq)) (fun i c hi hin => ?_) fun k hin hnew => ?_⟩
  · have hlength : t.controls.length = s.controls.length := by
      simpa using congrArg List.length hc
    exact absurd (lt_of_getElem? hlength hin) (Nat.not_lt.mpr hi)
  · exact absurd (hk ▸ hin) hnew

/-- The signals, the variables and the rest that no handle stands in. -/
theorem aside (hsc : t.screen = s.screen) (hc : t.controls = s.controls) (hn : t.nav = s.nav)
    (hr : t.router.subscriptions = s.router.subscriptions) : Grows s t :=
  move (by rw [hsc, hn]; exact Moves.refl _ _) (hc ▸ rfl) (hn ▸ rfl) hr

theorem refl (s : Session) : Grows s s := aside rfl rfl rfl rfl

theorem redraw (s : Session) {v : Screen} (hv : Later s.screen v) :
    Grows s { s with screen := v } :=
  move (t := { s with screen := v }) (Navigation.moves_of_frame hv rfl) rfl rfl rfl

theorem navigate (s : Session) {m : Navigation} {v : Screen} (hv : Moves s.nav s.screen m v)
    (hk : m.keyboards = s.nav.keyboards) : Grows s { s with nav := m, screen := v } :=
  move (t := { s with nav := m, screen := v }) hv rfl hk rfl

theorem foldl {α : Type} {f : Session → α → Session} (hf : ∀ s a, Grows s (f s a)) (as : List α)
    (s : Session) : Grows s (as.foldl f s) := by
  induction as generalizing s with
  | nil => exact refl s
  | cons a as ih => exact (hf s a).trans (ih (f s a))

theorem ite {c : Prop} [Decidable c] (ht : Grows s t) : Grows s (if c then t else s) := by
  split
  · exact ht
  · exact refl s

/-- The controls that are there are changed only in what they do not wire. -/
theorem rewire (s : Session) {f : Control → Control} (hf : ∀ c, (f c).wiring = c.wiring) (i : Nat) :
    Grows s { s with controls := s.controls.modify i f } :=
  move (t := { s with controls := s.controls.modify i f }) (Moves.refl s.nav s.screen)
    (wiring_modify hf s.controls i) rfl rfl

/-- Some more listeners of one widget. -/
theorem listeners_onAll (r : Router) (kinds : List EventKind) (hr : t.router = r.onAll h kinds l)
    (hl : t.Serves h l) : ∀ q ∈ t.router.subscriptions, ∀ e ∈ q.listeners, t.Serves q.widget e.2 ∨
      ∃ p ∈ r.subscriptions, p.widget = q.widget ∧ e ∈ p.listeners := by
  intro q hq e he
  rcases Router.mem_onAll (hr ▸ hq) he with ⟨hw, hnew⟩ | hold
  · rw [hw, hnew]
    exact .inl hl
  · exact .inr hold

/-- The listeners of a view or a keyboard that is there. -/
theorem listen (s : Session) (kinds : List EventKind) (hl : s.Serves h l)
    (hreports : l.reports = false) : Grows s { s with router := s.router.onAll h kinds l } := by
  have hlisteners := listeners_onAll (t := { s with router := s.router.onAll h kinds l })
    s.router kinds rfl hl
  have hkeeps := s.router.onAll_keeps h kinds l
  refine ⟨Moves.refl s.nav s.screen, List.prefix_refl _, hkeeps, hlisteners, fun hs =>
    hs.grow (Moves.refl s.nav s.screen) (List.prefix_refl _) hkeeps hlisteners ?_ ?_ ?_⟩
  · exact hs.once.onAll fun hP => by rw [hreports] at hP; cases hP
  · exact fun i c hi hc => absurd (lt_of_getElem? (s := s) rfl hc) (Nat.not_lt.mpr hi)
  · exact fun k hk hnew => absurd hk hnew

end Grows

/-! ## Signals and variables -/

theorem tell_grows (s : Session) (signal : Signal) : Grows s (s.tell signal) :=
  Grows.ite (Grows.aside rfl rfl rfl rfl)

theorem tellIf_grows (s : Session) (function : String) (signal : String → Signal) :
    Grows s (s.tellIf function signal) := by
  unfold tellIf
  split
  · exact Grows.refl s
  · exact tell_grows s _

theorem withStore_grows (s : Session) (store : Store) : Grows s (s.withStore store) :=
  Grows.aside rfl rfl rfl rfl

theorem refresh_grows (s : Session) (name value : String) : Grows s (s.refresh name value) :=
  Grows.redraw s (Later.foldl
    (fun v c => Refresh.control_steps Screen.steps_later (s.refreshOf name value) c v) _ _)

theorem accept_grows (s : Session) (name value : String) : Grows s (s.accept name value) :=
  (withStore_grows s _).trans (refresh_grows _ name value)

theorem assign_grows (s : Session) (name value : String) : Grows s (s.assign name value) :=
  (withStore_grows s (s.store.setText name value true).2).trans (refresh_grows _ name _).ite

theorem assignSilently_grows (s : Session) (name value : String) :
    Grows s (s.assignSilently name value) :=
  withStore_grows s _

theorem sync_grows (s : Session) : Grows s s.sync := by
  refine Grows.redraw s (Later.foldl (fun v c => ?_) _ _)
  unfold syncControl
  split
  · exact Screen.later_modify v _ _
  · exact Screen.later_modify v _ _
  · exact Screen.later_modify v _ _
  · exact Later.refl v

/-! ## Attributes -/

theorem onControl_grows (s : Session) (id : String) {f : Control → Screen → Screen}
    (hf : ∀ c, Later s.screen (f c s.screen)) : Grows s (s.onControl id f).2 := by
  unfold onControl
  split
  · next c _ => exact Grows.redraw s (hf c)
  · exact Grows.refl s

theorem attrChange?_later {screen v : Screen} {size : Size} {c : Control} {attr value : String}
    (he : attrChange? size c attr value screen = some v) : Later screen v := by
  unfold attrChange? at he
  extract_lets h r at he
  split at he
  case h_1 =>
    cases he
    exact Screen.later_applyStyles screen h _
  case h_9 =>
    rw [← Option.some.inj he]
    split
    · exact Screen.later_raise screen h
    · exact (Screen.later_moveTo screen h 0).ite
  case h_10 => cases he
  -- the others change one widget
  all_goals
    cases he
    exact Screen.later_modify screen _ _

theorem setAttr_grows (s : Session) (id attr value : String) :
    Grows s (s.setAttr id attr value).2 := by
  unfold setAttr
  split
  · exact Grows.refl s
  · split
    · next v he => exact Grows.redraw s (attrChange?_later he)
    · exact Grows.refl s

theorem onCanvas_grows (s : Session) (id : String) (draw : Canvas → Canvas) :
    Grows s (s.onCanvas id draw).2 := by
  unfold onCanvas
  split
  · exact Grows.refl s
  · next i _ =>
    split
    · exact Grows.refl s
    · next c _ =>
      exact (Grows.redraw s (Screen.later_modify s.screen c.obj _)).trans
        (Grows.rewire _ (f := fun c => { c with canvas := c.canvas.map draw }) (fun _ => rfl) i)

theorem callOnclick_grows (s : Session) (id : String) : Grows s (s.callOnclick id).2 := by
  unfold callOnclick
  split
  · exact tell_grows s _
  · exact Grows.refl s

theorem call_grows (s : Session) (name : String) : Grows s (s.call name).2 := by
  unfold call
  split
  · exact Grows.refl s
  · exact tell_grows s _

/-! ## Keyboards and links -/

/-- A new keyboard hears what closes it. -/
theorem Grows.keyboard (s : Session) {page : Handle} {m : Navigation} {v : Screen}
    (hp : s.nav.isPage page = true) (he : s.nav.keyboard s.screen page = ((k, true), m, v)) :
    Grows s { s with nav := m, screen := v, router := s.router.onAll k closing .keyboard } := by
  obtain ⟨hmoves, hk⟩ := Navigation.keyboard_moves hp he
  have hlisteners := listeners_onAll
    (t := { s with nav := m, screen := v, router := s.router.onAll k closing .keyboard })
    s.router closing rfl (l := .keyboard) hk
  have hkeeps := s.router.onAll_keeps k closing .keyboard
  refine ⟨hmoves, List.prefix_refl _, hkeeps, hlisteners, fun hs =>
    hs.grow hmoves (List.prefix_refl _) hkeeps hlisteners ?_ ?_ fun e hem hnew hg kind hkind => ?_⟩
  · exact hs.once.onAll fun hP => by cases hP
  · exact fun i c hi hc => absurd (lt_of_getElem? (s := s) rfl hc) (Nat.not_lt.mpr hi)
  · have hek : e.2 = k := Navigation.keyboard_new he hem hnew
    rw [hek] at hg ⊢
    exact Router.heard_onAll hg hkind

theorem showKeyboard_grows (s : Session) (input : Handle) : Grows s (s.showKeyboard input).2 := by
  unfold showKeyboard
  split
  · exact Grows.refl s
  · next page hpage =>
    split
    next k isNew nav screen he =>
    extract_lets router shown
    have hkeyboard : Grows s { s with nav := nav, screen := screen, router := router } := by
      unfold router
      cases isNew with
      | false => exact Grows.navigate s (Navigation.keyboard_moves
          (Navigation.pageAround?_isPage hpage) he).1 (Navigation.keyboard_old he)
      | true => exact Grows.keyboard s (Navigation.pageAround?_isPage hpage) he
    have hshown : Later screen shown :=
      (Screen.later_modify screen k _).trans (Screen.later_modify _ k _)
    exact hkeyboard.trans ((Grows.redraw _ hshown).trans (Grows.aside rfl rfl rfl rfl))

theorem hideKeyboard_grows (s : Session) (input : Handle) : Grows s (s.hideKeyboard input) := by
  unfold hideKeyboard
  split
  · exact Grows.redraw s (Screen.later_modify s.screen _ _)
  · exact Grows.refl s

theorem beginInput_grows (s : Session) (id : String) : Grows s (s.beginInput id).2 := by
  unfold beginInput
  split
  · exact Grows.refl s
  · next h _ =>
    split
    · exact Grows.refl s
    · have hshow := showKeyboard_grows s h
      split
      · next t he =>
        rw [he] at hshow
        exact hshow.trans (Grows.redraw t (Screen.later_modify t.screen h _))
      · next t he =>
        rw [he] at hshow
        exact hshow

theorem showPage_grows (s : Session) (path : String) : Grows s (s.showPage path).2 := by
  unfold showPage
  cases hd : s.nav.display s.screen path with
  | error e => exact Grows.refl s
  | ok r => exact Grows.navigate s (Navigation.display_moves hd) (Navigation.display_keyboards hd)

theorem navigate_grows (s : Session) (href : String) : Grows s (s.navigate href).2 := by
  rcases navigate_cases s href with he | ⟨path, he⟩
  · rw [he]
    exact Grows.refl s
  · have hshow := showPage_grows s path
    rwa [he] at hshow

/-! ## Listeners -/

theorem onClick_grows (s : Session) (c : Control) (kind : EventKind) :
    Grows s (s.onClick c kind) := by
  unfold onClick
  split
  · exact tellIf_grows s _ _
  · have htell := tellIf_grows s c.actions.onclick .call
    extract_lets s₁
    split
    · exact htell
    · exact htell.trans (navigate_grows s₁ _)
  · exact Grows.refl s

theorem report_grows (s : Session) (c : Control) (value : String) :
    Grows s (s.report c value) := by
  unfold report
  split
  · exact (accept_grows s _ _).trans (tell_grows _ _)
  · exact Grows.refl s

theorem onSlider_grows (s : Session) (i : Nat) (c : Control) (kind : EventKind) :
    Grows s (s.onSlider i c kind) := by
  unfold onSlider
  extract_lets value now s₁
  split
  · split
    · exact Grows.refl s
    · have htime : Grows s s₁ :=
        Grows.rewire s (f := ({ · with lastUpdate := some now })) (fun _ => rfl) i
      split
      · exact htime.trans (accept_grows s₁ _ _)
      · exact htime
  · exact (report_grows s c value).trans (tellIf_grows _ _ _)
  · exact Grows.refl s

theorem onInput_grows (s : Session) (c : Control) (kind : EventKind) :
    Grows s (s.onInput c kind) := by
  unfold onInput
  split
  · split
    · exact accept_grows s _ _
    · exact Grows.refl s
  · exact showKeyboard_grows s c.obj
  · have hhide := hideKeyboard_grows s c.obj
    extract_lets s₁ s₂
    have htell : Grows s s₂ := by
      unfold s₂
      split
      · exact hhide.trans (tell_grows s₁ _)
      · exact hhide
    exact htell.trans (tellIf_grows s₂ _ _)
  · exact Grows.refl s

theorem onKeyboard_grows (s : Session) (h : Handle) (kind : EventKind) :
    Grows s (s.onKeyboard h kind) := by
  unfold onKeyboard
  split
  · extract_lets s₁
    have hhide : Grows s s₁ := Grows.redraw s (Screen.later_modify s.screen h _)
    split
    · next input _ =>
      have hblur : Grows s₁ (s₁.mapScreen (·.setFocused input false)) :=
        Grows.redraw s₁ (Screen.later_modify s₁.screen input _)
      exact (hhide.trans hblur).trans (Grows.aside rfl rfl rfl rfl)
    · exact hhide
  · exact Grows.refl s

theorem touch_grows (s : Session) (c : Control) (kind : EventKind) (x y : Int) :
    Grows s (s.touch c kind x y) := by
  have hdraw : Grows s (if c.actions.ondraw = "" then s else
      ((s.assignSilently "_touchX" (Value.intText x)).assignSilently "_touchY"
        (Value.intText y)).tell (.call c.actions.ondraw)) := by
    split
    · exact Grows.refl s
    · exact ((assignSilently_grows s _ _).trans (assignSilently_grows _ _ _)).trans (tell_grows _ _)
  unfold touch
  split
  · exact tellIf_grows s _ _
  · exact tellIf_grows s _ _
  · exact hdraw
  · exact hdraw
  · exact Grows.refl s

theorem onCanvasTouch_grows (s : Session) (control : Option Control) (kind : EventKind) :
    Grows s (s.onCanvasTouch control kind) := by
  unfold onCanvasTouch
  extract_lets s₁
  have hforget : Grows s s₁ :=
    ((assignSilently_grows s _ _).trans (assignSilently_grows _ _ _)).ite
  split
  · exact hforget
  · split
    · exact hforget
    · extract_lets r x y
      exact hforget.trans (touch_grows s₁ _ _ _ _).ite

theorem handle_grows (s : Session) (h : Handle) (kind : EventKind) (l : Listener) :
    Grows s (s.handle h kind l) := by
  unfold handle
  extract_lets withControl
  have hcontrol (i : Nat) {f : Control → Session} (hf : ∀ c, Grows s (f c)) :
      Grows s (withControl i f) := by
    unfold withControl
    split
    · exact hf _
    · exact Grows.refl s
  split
  · exact hcontrol _ fun c => onClick_grows s c kind
  · exact hcontrol _ fun c => (report_grows s c _).trans (tellIf_grows _ _ _)
  · exact hcontrol _ fun c => onSlider_grows s _ c kind
  · exact hcontrol _ fun c => onInput_grows s c kind
  · exact onCanvasTouch_grows s _ kind
  · exact onKeyboard_grows s h kind
  · next g =>
    exact Grows.navigate s (Navigation.swiped_moves s.nav s.screen g)
      (Navigation.swiped_keyboards s.nav s.screen g)

theorem dispatch_grows (s : Session) (h : Handle) (kind : EventKind) :
    Grows s (s.dispatch h kind) :=
  Grows.foldl (fun s l => handle_grows s h kind l) _ s

theorem process_grows (s : Session) : Grows s s.process.2 := by
  have hdrain : Grows s { s with router := { s.router with queue := [] } } :=
    Grows.aside rfl rfl rfl rfl
  exact hdrain.trans (Grows.foldl (fun s (e : Handle × EventKind) => dispatch_grows s e.1 e.2) _ _)

end Session
end ScreenMarkup
