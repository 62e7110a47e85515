import ScreenMarkup.Proofs.Session.Events
import ScreenMarkup.Proofs.Session.Rendering

/-!
# Handlers

Every handler of an event keeps the session well formed and goes on showing
one page. The listeners of an event are looked up before the first of them
handles it; what a listener needs of the session is a listener's own matter.
-/

set_option autoImplicit false

namespace ScreenMarkup

open Navigation (Displayed SameTargets)

/-! ## Keyboards -/

namespace Navigation

variable {n m : Navigation} {s t : Screen} {h k page : Handle} {isNew : Bool}

/-- What contains a page can get a keyboard. -/
theorem WellFormed.isPage_isContainer (hn : n.WellFormed s) (hp : n.isPage h = true) :
    ∀ kind, s.kind? h = some kind → kind.isContainer = true := by
  rcases Bool.or_eq_true _ _ ▸ hp with hp | hp
  · obtain ⟨p, hpm, he⟩ := List.any_eq_true.mp hp
    rw [← of_decide_eq_true he]
    exact Screen.isContainer_of_kind? (hn.page p hpm) rfl
  · obtain ⟨g, hg, hany⟩ := List.any_eq_true.mp hp
    obtain ⟨p, hpm, he⟩ := List.any_eq_true.mp hany
    rw [← of_decide_eq_true he]
    exact Screen.isContainer_of_kind? (hn.tile g hg p hpm) rfl

theorem keyboard?_mem (hk : n.keyboard? page = some k) : (page, k) ∈ n.keyboards := by
  obtain ⟨l₁, l₂, he, -⟩ := List.lookup_eq_some_iff.mp hk
  rw [he]
  simp

theorem keyboard_spec (hs : s.WellFormed) (hn : n.WellFormed s) (hp : n.isPage page = true)
    (he : n.keyboard s page = ((k, isNew), m, t)) :
    s.Spares t ∧ t.kind? k = some .keyboard ∧ m.WellFormed t ∧ SameTargets n m ∧
      m.currentPage = n.currentPage ∧ m.currentGroup = n.currentGroup := by
  unfold keyboard at he
  split at he
  · next hk =>
    cases he
    exact ⟨Screen.Spares.refl hs, hn.keyboard _ (keyboard?_mem hk), hn, SameTargets.refl _, rfl,
      rfl⟩
  · extract_lets size at he
    split at he
    next k' s₁ hc =>
    extract_lets s₂ s₃ at he
    simp only [Prod.mk.injEq] at he
    obtain ⟨⟨rfl, -⟩, rfl, ht⟩ := he
    rw [← ht]
    have hadd : s.Adds k' .keyboard s₁ := hs.adds_create (hn.isPage_isContainer hp) hc
    have hlooks : s.Adds k' .keyboard (s₂.align k' .bottomMid {}) :=
      (hadd.restyle (Screen.setSize_restyles _ k' _ _)).restyle (Screen.align_restyles _ k' _ _)
    have hhidden : (s₂.align k' .bottomMid {}).Spares s₃ :=
      hlooks.preserves.wellFormed.spares_setHidden (fun kind hk => by
        rw [hlooks.kind?] at hk
        cases hk
        rfl) true
    have hspares := hlooks.preserves.spares.trans hhidden
    have hkind := hhidden.retains.kind _ _ hlooks.kind?
    have hold := hn.retain hspares.retains
    refine ⟨hspares, hkind, { hold with keyboard := fun e hem => ?_ }, ⟨rfl, rfl⟩, rfl, rfl⟩
    rcases List.mem_append.mp hem with hem | hem
    · exact hold.keyboard e hem
    · rw [List.mem_singleton.mp hem]
      exact hkind

theorem pageAround?_isPage (he : n.pageAround? s h = some page) : n.isPage page = true :=
  List.find?_some he

end Navigation

namespace Session

variable {s t u : Session} {h : Handle}

/-- A change of the navigation that leaves it to the same widget to be shown. -/
theorem Keeps.navigate (hs : s.WellFormed) {m : Navigation} {v : Screen}
    (hsp : s.screen.Spares v) (hm : m.WellFormed v) (hsame : SameTargets s.nav m)
    (hp : m.currentPage = s.nav.currentPage) (hg : m.currentGroup = s.nav.currentGroup) :
    Keeps s { s with nav := m, screen := v } where
  wellFormed :=
    { screen := hsp.retains.wellFormed
      fits := fun c hc => (hs.fits c hc).retain hsp.retains
      apart := hs.apart
      nav := hm
      keyboard := fun r hr l hl hk => hsp.retains.kind _ _ (hs.keyboard r hr l hl hk) }
  retains := hsp.retains
  pages := hsame.pages
  exclusive he := he.congr hsame hp hg fun h hh => by
    obtain ⟨kind, hk, hpaged⟩ := hs.paged hh
    exact hsp.hidden h kind hk hpaged

/-- More listeners on a widget: those for keyboards on a keyboard. -/
theorem WellFormed.listen (hs : s.WellFormed) (kinds : List EventKind) {l : Listener}
    (hl : l = .keyboard → s.screen.kind? h = some .keyboard) :
    ({ s with router := s.router.onAll h kinds l } : Session).WellFormed :=
  { hs with
    keyboard := fun q hq e he hk => by
      rcases Router.mem_onAll hq he with ⟨hw, hnew⟩ | ⟨p, hp, hw, hep⟩
      · rw [hw]
        exact hl (hnew.symm.trans hk)
      · rw [← hw]
        exact hs.keyboard p hp e hep hk }

theorem showKeyboard_keeps (hs : s.WellFormed) (input : Handle) :
    Keeps s (s.showKeyboard input).2 := by
  unfold showKeyboard
  split
  · exact Keeps.refl hs
  · next page hpage =>
    split
    next k isNew nav screen he =>
    obtain ⟨hsp, hkind, hm, hsame, hp, hg⟩ :=
      Navigation.keyboard_spec hs.screen hs.nav (Navigation.pageAround?_isPage hpage) he
    have hnav := Keeps.navigate hs hsp hm hsame hp hg
    have hlisten : Keeps { s with nav := nav, screen := screen } { s with
        nav := nav
        screen := screen
        router := if isNew then s.router.onAll k [.ready, .cancel] .keyboard else s.router } := by
      cases isNew with
      | false => exact Keeps.refl hnav.wellFormed
      | true =>
        exact ⟨hnav.wellFormed.listen _ fun _ => hkind,
          Screen.Retains.refl hsp.retains.wellFormed, rfl, id⟩
    have htarget := (Screen.configure_restyles screen k (.keyboardTarget (some input))).spares
      hsp.retains.wellFormed
    have hshown := htarget.trans (htarget.retains.wellFormed.spares_setHidden (fun kind hk => by
        rw [htarget.retains.kind _ _ hkind] at hk
        cases hk
        rfl) false)
    exact (hnav.trans hlisten).trans (Keeps.spare hlisten.wellFormed hshown rfl rfl rfl)

theorem hideKeyboard_keeps (hs : s.WellFormed) (input : Handle) :
    Keeps s (s.hideKeyboard input) := by
  unfold hideKeyboard
  split
  · next k hk =>
    obtain ⟨page, -, hk⟩ := Option.bind_eq_some_iff.mp hk
    have hkind := hs.nav.keyboard _ (Navigation.keyboard?_mem hk)
    refine Keeps.mapScreen hs (f := (·.setHidden k true)) (hs.screen.spares_setHidden ?_ true)
    intro kind he
    rw [hkind] at he
    cases he
    rfl
  · exact Keeps.refl hs

theorem setFocused_keeps (hs : s.WellFormed) (h : Handle) (b : Bool) :
    Keeps s (s.mapScreen (·.setFocused h b)) :=
  Keeps.mapScreen hs (f := (·.setFocused h b)) (hs.screen.spares_modify fun _ => ⟨rfl, rfl⟩)

theorem beginInput_keeps (hs : s.WellFormed) (id : String) : Keeps s (s.beginInput id).2 := by
  unfold beginInput
  split
  · exact Keeps.refl hs
  · next h _ =>
    split
    · exact Keeps.refl hs
    · have hshow := showKeyboard_keeps hs h
      split
      · next t he =>
        rw [he] at hshow
        exact hshow.trans (setFocused_keeps hshow.wellFormed h true)
      · next t he =>
        rw [he] at hshow
        exact hshow

/-! ## Links -/

theorem showPage_keeps (hs : s.WellFormed) (path : String) : Keeps s (s.showPage path).2 := by
  rcases showPage_spec hs path with ⟨-, e, he⟩ | ⟨-, m, v, hd, he⟩
  · rw [he]
    exact Keeps.refl hs
  · rw [he]
    exact ⟨hs.displayed hd, hd.steers.retains hs.screen, hd.targets.pages, fun _ => hd.exclusive⟩

theorem showPage_cases (s : Session) (path : String) :
    (s.showPage path).2 = s ∨ s.showPage path = (.ok (), (s.showPage path).2) := by
  unfold showPage
  cases s.nav.display s.screen path with
  | error e => exact .inl rfl
  | ok r => exact .inr rfl

/-- Following a link shows a page by its path, if it does anything. -/
theorem navigate_cases (s : Session) (href : String) :
    (s.navigate href).2 = s ∨ ∃ path, s.showPage path = (.ok (), (s.navigate href).2) := by
  have hstep (delta : Int) : (s.navigated (s.nav.step s.screen delta)).2 = s ∨
      ∃ path, s.showPage path = (.ok (), (s.navigated (s.nav.step s.screen delta)).2) := by
    unfold Navigation.step
    extract_lets next
    split
    · exact .inl rfl
    · split
      · next p _ => exact (showPage_cases s p.id).imp id fun h => ⟨p.id, h⟩
      · exact .inl rfl
  unfold navigate
  split
  · extract_lets target
    split
    · exact hstep 1
    · split
      · exact hstep (-1)
      · exact (showPage_cases s target).imp id fun h => ⟨target, h⟩
  · exact .inl rfl

theorem navigate_keeps (hs : s.WellFormed) (href : String) : Keeps s (s.navigate href).2 := by
  rcases navigate_cases s href with he | ⟨path, he⟩
  · rw [he]
    exact Keeps.refl hs
  · have hshow := showPage_keeps hs path
    rwa [he] at hshow

/-! ## Listeners -/

theorem onClick_keeps (hs : s.WellFormed) (c : Control) (kind : EventKind) :
    Keeps s (s.onClick c kind) := by
  unfold onClick
  split
  · exact tellIf_keeps hs _ _
  · have htell := tellIf_keeps hs c.actions.onclick .call
    extract_lets s₁
    split
    · exact htell
    · exact htell.trans (navigate_keeps htell.wellFormed _)
  · exact Keeps.refl hs

theorem report_keeps (hs : s.WellFormed) (c : Control) (value : String) :
    Keeps s (s.report c value) := by
  unfold report
  split
  · next v _ =>
    have haccept := accept_keeps hs v value
    exact haccept.trans (tell_keeps haccept.wellFormed _)
  · exact Keeps.refl hs

theorem onSwitch_keeps (hs : s.WellFormed) (c : Control) : Keeps s (s.onSwitch c) := by
  have hreport := report_keeps hs c (Value.boolText (s.screen.isChecked c.obj))
  exact hreport.trans (tellIf_keeps hreport.wellFormed _ _)

theorem wiring_modify {f : Control → Control} (hf : ∀ c, (f c).wiring = c.wiring)
    (cs : List Control) (i : Nat) : (cs.modify i f).map Control.wiring = cs.map Control.wiring := by
  induction cs generalizing i with
  | nil => rw [List.modify_nil]
  | cons c cs ih =>
    cases i with
    | zero =>
      rw [List.modify_zero_cons, List.map_cons, List.map_cons, hf]
    | succ i =>
      rw [List.modify_succ_cons, List.map_cons, List.map_cons, ih]

theorem onSlider_keeps (hs : s.WellFormed) (i : Nat) (c : Control) (kind : EventKind) :
    Keeps s (s.onSlider i c kind) := by
  have htime : Keeps s { s with
      controls := s.controls.modify i ({ · with lastUpdate := some s.screen.clock }) } :=
    Keeps.spare hs (Screen.Spares.refl hs.screen)
      (wiring_modify (f := ({ · with lastUpdate := some s.screen.clock })) (fun _ => rfl) _ i)
      rfl rfl
  unfold onSlider
  extract_lets value
  split
  · split
    · exact Keeps.refl hs
    · split
      · exact htime.trans (accept_keeps htime.wellFormed _ _)
      · exact htime
  · have hreport := report_keeps hs c value
    exact hreport.trans (tellIf_keeps hreport.wellFormed _ _)
  · exact Keeps.refl hs

theorem onInput_keeps (hs : s.WellFormed) (c : Control) (kind : EventKind) :
    Keeps s (s.onInput c kind) := by
  unfold onInput
  split
  · split
    · exact accept_keeps hs _ _
    · exact Keeps.refl hs
  · exact showKeyboard_keeps hs c.obj
  · have hhide := hideKeyboard_keeps hs c.obj
    extract_lets s₁ s₂
    have htell : Keeps s s₂ := by
      unfold s₂
      split
      · exact hhide.trans (tell_keeps hhide.wellFormed _)
      · exact hhide
    exact htell.trans (tellIf_keeps htell.wellFormed _ _)
  · exact Keeps.refl hs

theorem onKeyboard_keeps (hs : s.WellFormed) (hk : s.screen.kind? h = some .keyboard)
    (kind : EventKind) : Keeps s (s.onKeyboard h kind) := by
  unfold onKeyboard
  split
  · extract_lets s₁
    have hhide : Keeps s s₁ :=
      Keeps.mapScreen hs (f := (·.setHidden h true)) (hs.screen.spares_setHidden (fun k he => by
        rw [hk] at he
        cases he
        rfl) true)
    split
    · next input _ =>
      have hblur := setFocused_keeps hhide.wellFormed input false
      exact (hhide.trans hblur).trans (Keeps.aside hblur.wellFormed rfl rfl rfl rfl)
    · exact hhide
  · exact Keeps.refl hs

theorem touch_keeps (hs : s.WellFormed) (c : Control) (kind : EventKind) (x y : Int) :
    Keeps s (s.touch c kind x y) := by
  have hdraw : Keeps s (if c.actions.ondraw = "" then s else
      ((s.assignSilently "_touchX" (Value.intText x)).assignSilently "_touchY"
        (Value.intText y)).tell (.call c.actions.ondraw)) := by
    split
    · exact Keeps.refl hs
    · have hx := assignSilently_keeps hs "_touchX" (Value.intText x)
      have hy := hx.trans (assignSilently_keeps hx.wellFormed "_touchY" (Value.intText y))
      exact hy.trans (tell_keeps hy.wellFormed _)
  unfold touch
  split
  · exact tellIf_keeps hs _ _
  · exact tellIf_keeps hs _ _
  · exact hdraw
  · exact hdraw
  · exact Keeps.refl hs

theorem onCanvasTouch_keeps (hs : s.WellFormed) (control : Option Control) (kind : EventKind) :
    Keeps s (s.onCanvasTouch control kind) := by
  have hforget : Keeps s (if kind = .pressed then s.forgetTouch else s) := by
    split
    · have hx := assignSilently_keeps hs "lastX" "-1"
      exact hx.trans (assignSilently_keeps hx.wellFormed "lastY" "-1")
    · exact Keeps.refl hs
  unfold onCanvasTouch
  extract_lets s₁
  split
  · exact hforget
  · split
    · exact hforget
    · extract_lets r x y
      split
      · exact hforget.trans (touch_keeps hforget.wellFormed _ _ _ _)
      · exact hforget

theorem swiped_keeps (hs : s.WellFormed) (gi : Nat) :
    Keeps s { s with
      nav := (s.nav.swiped s.screen gi).1
      screen := (s.nav.swiped s.screen gi).2 } := by
  obtain ⟨hlooks, hsame, hm, hp, hg, -⟩ := Navigation.swiped_spec hs.screen hs.nav gi
  exact Keeps.navigate hs (hlooks.spares hs.screen) hm hsame hp hg

/-- A keyboard's listener expects a keyboard. -/
theorem handle_keeps (hs : s.WellFormed) (kind : EventKind) {l : Listener}
    (hl : l = .keyboard → s.screen.kind? h = some .keyboard) : Keeps s (s.handle h kind l) := by
  unfold handle
  extract_lets withControl
  have hcontrol (i : Nat) {f : Control → Session} (hf : ∀ c, Keeps s (f c)) :
      Keeps s (withControl i f) := by
    unfold withControl
    split
    · exact hf _
    · exact Keeps.refl hs
  split
  · exact hcontrol _ fun c => onClick_keeps hs c kind
  · exact hcontrol _ fun c => onSwitch_keeps hs c
  · exact hcontrol _ fun c => onSlider_keeps hs _ c kind
  · exact hcontrol _ fun c => onInput_keeps hs c kind
  · exact onCanvasTouch_keeps hs _ kind
  · exact onKeyboard_keeps hs (hl rfl) kind
  · exact swiped_keeps hs _

/-! ## Events -/

/-- A keyboard's listeners stand on keyboards only. -/
theorem WellFormed.listener_kind (hs : s.WellFormed) {kind : EventKind}
    (hl : Listener.keyboard ∈ s.router.listeners h kind) :
    s.screen.kind? h = some .keyboard := by
  obtain ⟨q, hq, rfl, e, he, hek⟩ := Router.mem_listeners hl
  exact hs.keyboard q hq e he hek

theorem dispatch_keeps (hs : s.WellFormed) (h : Handle) (kind : EventKind) :
    Keeps s (s.dispatch h kind) := by
  have hrun (ls : List Listener) {t : Session} (hst : Keeps s t)
      (hls : ∀ l ∈ ls, l ∈ s.router.listeners h kind) :
      Keeps s (ls.foldl (fun s l => s.handle h kind l) t) := by
    induction ls generalizing t with
    | nil => exact hst
    | cons l ls ih =>
      refine ih (hst.trans (handle_keeps hst.wellFormed kind fun hl => ?_))
        fun m hm => hls m (by simp [hm])
      exact hst.retains.kind _ _ (hs.listener_kind (hl ▸ hls l (by simp)))
  exact hrun _ (Keeps.refl hs) fun _ hl => hl

theorem process_keeps (hs : s.WellFormed) : Keeps s s.process.2 := by
  have hdrain : Keeps s { s with router := { s.router with queue := [] } } :=
    Keeps.aside hs rfl rfl rfl rfl
  exact hdrain.trans (Keeps.foldl (fun s e hs _ => dispatch_keeps hs e.1 e.2) hdrain.wellFormed)

end Session
end ScreenMarkup
