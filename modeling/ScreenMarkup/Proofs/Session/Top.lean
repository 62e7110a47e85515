import ScreenMarkup.Proofs.Navigation.Top
import ScreenMarkup.Proofs.Session.Operations

/-!
# The screen of a session

No control has the screen itself for a widget, and so the screen looks as it
did when the session was new, whatever is done to the session. A user types
into and drags the widgets on the screen, never the screen.
-/

set_option autoImplicit false

namespace ScreenMarkup

open Screen (SameTop)

/-- A user edits the widgets on the screen and not the screen itself, which is nothing to type into
or to drag. All other operations are free to name it. -/
def Operation.sparesTop : Operation → Bool
  | edit h _ => h ≠ Handle.screen
  | _ => true

namespace Session

variable {s t : Session} {h : Handle} {v : Screen} {w : Size → Option Widget}

theorem attrChange?_sameTop {screen t : Screen} {size : Size} {c : Control}
    {attr value : String} (hobj : c.obj ≠ Handle.screen) (htarget : c.target ≠ Handle.screen)
    (he : attrChange? size c attr value screen = some t) : screen.SameTop t := by
  unfold attrChange? at he
  extract_lets h r at he
  split at he
  case h_1 =>
    cases he
    exact (Screen.setBackground_restyles _ _ _).sameTop htarget
  case h_2 =>
    cases he
    exact (Screen.applyStyle_restyles _ _ _).sameTop hobj
  case h_3 =>
    cases he
    exact Screen.sameTop_modify hobj _
  case h_4 =>
    cases he
    exact Screen.sameTop_modify htarget _
  case h_5 =>
    cases he
    exact Screen.sameTop_modify htarget _
  case h_6 =>
    cases he
    exact Screen.sameTop_modify htarget _
  case h_7 =>
    cases he
    exact Screen.sameTop_modify htarget _
  case h_8 =>
    cases he
    exact Screen.sameTop_modify htarget _
  case h_9 =>
    rw [← Option.some.inj he]
    split
    · exact Screen.widget?_raise _ _ _
    · split
      · exact Screen.widget?_moveTo _ _ _ _
      · exact SameTop.refl screen
  case h_10 => cases he

/-- What a new screen of a size looks like. -/
def blankTop (size : Size) : Option Widget := (Screen.new size).widget? Handle.screen

/-- The screen looks as one of its size should, and nothing that is kept names it. -/
structure Topped (w : Size → Option Widget) (s : Session) : Prop where
  widget : s.screen.widget? Handle.screen = w s.config.screen
  unowned : ∀ c ∈ s.controls, ¬c.Owns Handle.screen
  focused : s.focusedInput ≠ some Handle.screen

namespace Topped

theorem redraw (ht : s.Topped w) (hv : s.screen.SameTop v) :
    ({ s with screen := v } : Session).Topped w :=
  ⟨Eq.trans hv ht.widget, ht.unowned, ht.focused⟩

theorem obj_ne (ht : s.Topped w) {c : Control} (hc : c ∈ s.controls) : c.obj ≠ Handle.screen :=
  fun he => ht.unowned c hc (.inl he)

theorem target_ne (ht : s.Topped w) {c : Control} (hc : c ∈ s.controls) :
    c.target ≠ Handle.screen :=
  fun he => ht.unowned c hc (he ▸ c.owns_target)

theorem get?_ne (ht : s.Topped w) {id : String} (hg : s.get? id = some h) : h ≠ Handle.screen := by
  obtain ⟨c, hc, rfl⟩ := Option.map_eq_some_iff.mp hg
  exact ht.obj_ne (List.mem_of_find?_eq_some hc)

/-! ## Signals and variables -/

theorem tell (ht : s.Topped w) (signal : Signal) : (s.tell signal).Topped w := by
  unfold Session.tell
  split
  · exact ⟨ht.widget, ht.unowned, ht.focused⟩
  · exact ht

theorem tellIf (ht : s.Topped w) (function : String) (signal : String → Signal) :
    (s.tellIf function signal).Topped w := by
  unfold Session.tellIf
  split
  · exact ht
  · exact ht.tell _

theorem withStore (ht : s.Topped w) (store : Store) : (s.withStore store).Topped w :=
  ⟨ht.widget, ht.unowned, ht.focused⟩

theorem refresh (ht : s.Topped w) (hs : s.WellFormed) (name value : String) :
    (s.refresh name value).Topped w :=
  ht.redraw ((Refresh.foldl_touches (r := s.refreshOf name value) hs.screen hs.fits).sameTop
    fun ⟨c, hc, ho⟩ => ht.unowned c hc ho)

theorem accept (ht : s.Topped w) (hs : s.WellFormed) (name value : String) :
    (s.accept name value).Topped w :=
  (ht.withStore _).refresh (withStore_keeps hs _).wellFormed name value

theorem assign (ht : s.Topped w) (hs : s.WellFormed) (name value : String) :
    (s.assign name value).Topped w := by
  have hstore := ht.withStore (s.store.setText name value true).2
  unfold Session.assign
  show (if (s.store.setText name value true).1 = true then _ else _ : Session).Topped w
  split
  · exact hstore.refresh (withStore_keeps hs _).wellFormed name _
  · exact hstore

theorem assignSilently (ht : s.Topped w) (name value : String) :
    (s.assignSilently name value).Topped w :=
  ht.withStore _

theorem sync (ht : s.Topped w) : s.sync.Topped w := by
  refine ht.redraw (SameTop.foldl (fun screen c hc => ?_) s.screen)
  unfold syncControl
  split
  · exact Screen.sameTop_modify (ht.obj_ne hc) _
  · exact Screen.sameTop_modify (ht.obj_ne hc) _
  · exact Screen.sameTop_modify (ht.obj_ne hc) _
  · exact SameTop.refl screen

/-! ## Attributes -/

theorem onControl (ht : s.Topped w) (id : String) {f : Control → Screen → Screen}
    (hf : ∀ c ∈ s.controls, s.screen.SameTop (f c s.screen)) : (s.onControl id f).2.Topped w := by
  unfold Session.onControl
  split
  · next c hc => exact ht.redraw (hf c (List.mem_of_find?_eq_some hc))
  · exact ht

theorem setText (ht : s.Topped w) (hs : s.WellFormed) (id text : String) :
    (s.setText id text).2.Topped w := by
  refine ht.onControl id fun c hc => Screen.sameTop_modify ?_ _
  unfold Screen.textWidget
  cases hchild : s.screen.child? c.obj 0 with
  | none => exact ht.obj_ne hc
  | some k => exact hs.screen.child_ne_top (List.mem_of_getElem? hchild)

theorem setAttr (ht : s.Topped w) (id attr value : String) :
    (s.setAttr id attr value).2.Topped w := by
  unfold Session.setAttr
  split
  · exact ht
  · next c hc =>
    have hmem : c ∈ s.controls := List.mem_of_find?_eq_some hc
    split
    · next t he => exact ht.redraw (attrChange?_sameTop (ht.obj_ne hmem) (ht.target_ne hmem) he)
    · exact ht

theorem unowned_modify (ht : s.Topped w) {f : Control → Control} (hf : ∀ c, (f c).wiring = c.wiring)
    (i : Nat) : ∀ c ∈ s.controls.modify i f, ¬c.Owns Handle.screen := by
  intro c hc ho
  obtain ⟨d, hd, hw⟩ := wiring_mem (wiring_modify hf s.controls i) hc
  rw [Control.wiring_eq hw] at ho
  exact ht.unowned d hd ho

theorem onCanvas (ht : s.Topped w) (id : String) (draw : Canvas → Canvas) :
    (s.onCanvas id draw).2.Topped w := by
  unfold Session.onCanvas
  split
  · exact ht
  · next i _ =>
    split
    · exact ht
    · next c hc =>
      have hpixels : s.screen.SameTop (s.screen.invalidate c.obj) :=
        Screen.sameTop_modify (ht.obj_ne (List.mem_of_getElem? hc)) _
      exact ⟨Eq.trans hpixels ht.widget,
        ht.unowned_modify (f := fun c => { c with canvas := c.canvas.map draw }) (fun _ => rfl) i,
        ht.focused⟩

theorem callOnclick (ht : s.Topped w) (id : String) : (s.callOnclick id).2.Topped w := by
  unfold Session.callOnclick
  split
  · exact ht.tell _
  · exact ht

theorem call (ht : s.Topped w) (name : String) : (s.call name).2.Topped w := by
  unfold Session.call
  split
  · exact ht
  · exact ht.tell _

/-! ## Keyboards and links -/

theorem showKeyboard (ht : s.Topped w) (hs : s.WellFormed) (hh : h ≠ Handle.screen) :
    (s.showKeyboard h).2.Topped w := by
  unfold Session.showKeyboard
  split
  · exact ht
  · next page hpage =>
    split
    next k isNew nav screen he =>
    obtain ⟨hsp, hkind, -⟩ :=
      Navigation.keyboard_spec hs.screen hs.nav (Navigation.pageAround?_isPage hpage) he
    have hne : k ≠ Handle.screen := hsp.retains.wellFormed.ne_top hkind fun h => by cases h
    have hraised : screen.SameTop
        ((screen.configure k (.keyboardTarget (some h))).setHidden k false) :=
      (Screen.sameTop_modify hne _).trans (Screen.sameTop_modify hne _)
    have hshown := (Navigation.keyboard_sameTop hs.screen.toSound he).trans hraised
    exact ⟨Eq.trans hshown ht.widget, ht.unowned, fun hf => hh (Option.some.inj hf)⟩

theorem hideKeyboard (ht : s.Topped w) (hs : s.WellFormed) (input : Handle) :
    (s.hideKeyboard input).Topped w := by
  unfold Session.hideKeyboard
  split
  · next k hk =>
    obtain ⟨page, -, hk⟩ := Option.bind_eq_some_iff.mp hk
    have hkind := hs.nav.keyboard _ (Navigation.keyboard?_mem hk)
    exact ht.redraw (Screen.sameTop_modify (hs.screen.ne_top hkind fun h => by cases h) _)
  · exact ht

theorem beginInput (ht : s.Topped w) (hs : s.WellFormed) (id : String) :
    (s.beginInput id).2.Topped w := by
  unfold Session.beginInput
  split
  · exact ht
  · next h hg =>
    have hne := ht.get?_ne hg
    split
    · exact ht
    · have hshow := ht.showKeyboard hs hne
      split
      · next t he =>
        rw [he] at hshow
        exact hshow.redraw (Screen.sameTop_modify hne _)
      · next t he =>
        rw [he] at hshow
        exact hshow

theorem showPage (ht : s.Topped w) (hs : s.WellFormed) (path : String) :
    (s.showPage path).2.Topped w := by
  unfold Session.showPage
  cases hd : s.nav.display s.screen path with
  | error e => exact ht
  | ok r =>
    obtain ⟨m, v⟩ := r
    have htop := Navigation.display_sameTop hs.screen hs.nav hd
    exact ⟨Eq.trans htop ht.widget, ht.unowned, ht.focused⟩

theorem navigate (ht : s.Topped w) (hs : s.WellFormed) (href : String) :
    (s.navigate href).2.Topped w := by
  rcases navigate_cases s href with he | ⟨path, he⟩
  · rw [he]
    exact ht
  · have hshow := ht.showPage hs path
    rwa [he] at hshow

/-! ## Listeners -/

theorem onClick (ht : s.Topped w) (hs : s.WellFormed) (c : Control) (kind : EventKind) :
    (s.onClick c kind).Topped w := by
  unfold Session.onClick
  split
  · exact ht.tellIf _ _
  · have htell := ht.tellIf c.actions.onclick .call
    extract_lets s₁
    split
    · exact htell
    · exact htell.navigate (tellIf_keeps hs _ _).wellFormed _
  · exact ht

theorem report (ht : s.Topped w) (hs : s.WellFormed) (c : Control) (value : String) :
    (s.report c value).Topped w := by
  unfold Session.report
  split
  · exact (ht.accept hs _ _).tell _
  · exact ht

theorem onSlider (ht : s.Topped w) (hs : s.WellFormed) (i : Nat) (c : Control) (kind : EventKind) :
    (s.onSlider i c kind).Topped w := by
  have hwiring : ∀ c : Control,
      { c with lastUpdate := some s.screen.clock }.wiring = c.wiring := fun _ => rfl
  have htime : ({ s with
      controls := s.controls.modify i ({ · with lastUpdate := some s.screen.clock }) } :
        Session).Topped w :=
    ⟨ht.widget, ht.unowned_modify hwiring i, ht.focused⟩
  have hwell : ({ s with
      controls := s.controls.modify i ({ · with lastUpdate := some s.screen.clock }) } :
        Session).WellFormed :=
    hs.retain (Screen.Retains.refl hs.screen) (wiring_modify hwiring s.controls i) rfl rfl
  unfold Session.onSlider
  extract_lets value
  split
  · split
    · exact ht
    · split
      · exact htime.accept hwell _ _
      · exact htime
  · exact (ht.report hs c value).tellIf _ _
  · exact ht

theorem onInput (ht : s.Topped w) (hs : s.WellFormed) {c : Control} (hc : c ∈ s.controls)
    (kind : EventKind) : (s.onInput c kind).Topped w := by
  unfold Session.onInput
  split
  · split
    · exact ht.accept hs _ _
    · exact ht
  · exact ht.showKeyboard hs (ht.obj_ne hc)
  · have hhide := ht.hideKeyboard hs c.obj
    extract_lets s₁ s₂
    have htell : s₂.Topped w := by
      unfold s₂
      split
      · exact hhide.tell _
      · exact hhide
    exact htell.tellIf _ _
  · exact ht

theorem onKeyboard (ht : s.Topped w) (hh : h ≠ Handle.screen) (kind : EventKind) :
    (s.onKeyboard h kind).Topped w := by
  unfold Session.onKeyboard
  split
  · extract_lets s₁
    have hhide : s₁.Topped w := ht.redraw (Screen.sameTop_modify hh _)
    split
    · next input hi =>
      have hne : input ≠ Handle.screen := fun he => hhide.focused (he ▸ hi)
      have hblur : s₁.screen.SameTop (s₁.screen.setFocused input false) :=
        Screen.sameTop_modify hne _
      exact ⟨Eq.trans hblur hhide.widget, hhide.unowned, Option.some_ne_none _ ∘ Eq.symm⟩
    · exact hhide
  · exact ht

theorem touch (ht : s.Topped w) (c : Control) (kind : EventKind) (x y : Int) :
    (s.touch c kind x y).Topped w := by
  have hdraw : (if c.actions.ondraw = "" then s else
      ((s.assignSilently "_touchX" (Value.intText x)).assignSilently "_touchY"
        (Value.intText y)).tell (.call c.actions.ondraw)).Topped w := by
    split
    · exact ht
    · exact ((ht.assignSilently _ _).assignSilently _ _).tell _
  unfold Session.touch
  split
  · exact ht.tellIf _ _
  · exact ht.tellIf _ _
  · exact hdraw
  · exact hdraw
  · exact ht

theorem onCanvasTouch (ht : s.Topped w) (control : Option Control) (kind : EventKind) :
    (s.onCanvasTouch control kind).Topped w := by
  have hforget : (if kind = .pressed then s.forgetTouch else s).Topped w := by
    split
    · exact (ht.assignSilently _ _).assignSilently _ _
    · exact ht
  unfold Session.onCanvasTouch
  extract_lets s₁
  split
  · exact hforget
  · split
    · exact hforget
    · extract_lets r x y
      split
      · exact hforget.touch _ _ _ _
      · exact hforget

theorem handle (ht : s.Topped w) (hs : s.WellFormed) (kind : EventKind) {l : Listener}
    (hl : l = .keyboard → s.screen.kind? h = some .keyboard) : (s.handle h kind l).Topped w := by
  unfold Session.handle
  extract_lets withControl
  have hcontrol (i : Nat) {f : Control → Session} (hf : ∀ c ∈ s.controls, (f c).Topped w) :
      (withControl i f).Topped w := by
    unfold withControl
    split
    · next c hc => exact hf c (List.mem_of_getElem? hc)
    · exact ht
  split
  · exact hcontrol _ fun c _ => ht.onClick hs c kind
  · exact hcontrol _ fun c _ => (ht.report hs c _).tellIf _ _
  · exact hcontrol _ fun c _ => ht.onSlider hs _ c kind
  · exact hcontrol _ fun c hc => ht.onInput hs hc kind
  · exact ht.onCanvasTouch _ kind
  · exact ht.onKeyboard (hs.screen.ne_top (hl rfl) fun h => by cases h) kind
  · next g =>
    have htop := Navigation.swiped_sameTop hs.screen.toSound s.nav g
    exact ⟨Eq.trans htop ht.widget, ht.unowned, ht.focused⟩

theorem dispatch (ht : s.Topped w) (hs : s.WellFormed) (h : Handle) (kind : EventKind) :
    (s.dispatch h kind).Topped w := by
  have hrun (ls : List Listener) {t : Session} (hst : Keeps s t) (htop : t.Topped w)
      (hls : ∀ l ∈ ls, l ∈ s.router.listeners h kind) :
      (ls.foldl (fun s l => s.handle h kind l) t).Topped w := by
    induction ls generalizing t with
    | nil => exact htop
    | cons l ls ih =>
      have hl : l = .keyboard → t.screen.kind? h = some .keyboard := fun hl =>
        hst.retains.kind _ _ (hs.listener_kind (hl ▸ hls l List.mem_cons_self))
      exact ih (hst.trans (handle_keeps hst.wellFormed kind hl))
        (htop.handle hst.wellFormed kind hl) fun m hm => hls m (List.mem_cons_of_mem _ hm)
  exact hrun _ (Keeps.refl hs) ht fun _ hl => hl

theorem process (ht : s.Topped w) (hs : s.WellFormed) : s.process.2.Topped w := by
  have hrun (es : List (Handle × EventKind)) {t : Session} (hwell : t.WellFormed)
      (htop : t.Topped w) : (es.foldl (fun s e => s.dispatch e.1 e.2) t).Topped w := by
    induction es generalizing t with
    | nil => exact htop
    | cons e es ih =>
      exact ih (dispatch_keeps hwell e.1 e.2).wellFormed (htop.dispatch hwell e.1 e.2)
  have hdrain : Keeps s { s with router := { s.router with queue := [] } } :=
    Keeps.aside hs rfl rfl rfl rfl
  exact hrun _ hdrain.wellFormed ⟨ht.widget, ht.unowned, ht.focused⟩

end Topped
end Session
end ScreenMarkup
