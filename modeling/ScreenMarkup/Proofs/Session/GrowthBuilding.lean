import ScreenMarkup.Proofs.Navigation.Arranging
import ScreenMarkup.Proofs.Session.Constructing
import ScreenMarkup.Proofs.Session.Growth
import ScreenMarkup.Session.Render

/-!
# Documents and their listeners

A document is laid out group by group and page by page. Each one is made, may
get a background, and gets its control, and a view gets a listener. What each
of these steps keeps is kept by the passes over groups and pages.

A document that is put on the screen takes nothing away. What its builders
record has a position before a listener is told of it, and a canvas that
cannot be made goes again before anything knows of it.
-/

set_option autoImplicit false

namespace ScreenMarkup.Session

variable {s : Session}

/-- A relation that the steps of laying out stay within. -/
structure LayingOut (G : Session → Session → Prop) : Prop where
  refl : ∀ s, G s s
  trans : ∀ {s t u}, G s t → G t u → G s u
  readHead : ∀ (s : Session) head store sheet,
    G s { s with head := head, store := store, sheet := sheet }
  addPage : ∀ {s : Session} {id size h m v}, s.nav.addPage s.screen id size = (h, m, v) →
    G s { s with nav := m, screen := v }
  addGroup : ∀ {s : Session} {id first orientation indicator size gi m v},
    s.nav.addGroup s.screen id first orientation indicator size = (gi, m, v) →
    G s { s with nav := m, screen := v }
  addTile? : ∀ {s : Session} {gi id size h m v},
    s.nav.addTile? s.screen gi id size = some (h, m, v) → G s { s with nav := m, screen := v }
  finishGroup : ∀ {s : Session} {gi m v}, s.nav.finishGroup s.screen gi = (m, v) →
    G s { s with nav := m, screen := v }
  setPageBackground : ∀ (s : Session) h page, G s (s.setPageBackground h page)
  pushPage : ∀ (s : Session) id h, G s (s.pushPage id h)
  listen : ∀ (s : Session) {view gi}, s.Serves view (.tileView gi) →
    G s { s with router := s.router.on view .valueChanged (.tileView gi) }

namespace LayingOut

variable {G : Session → Session → Prop} (hG : LayingOut G)

include hG

theorem renderPage (s : Session) (page : Element) : G s (s.renderPage page).1 := by
  unfold Session.renderPage
  extract_lets id
  split
  · exact hG.refl s
  · split
    next h m v he =>
    exact hG.trans (hG.trans (hG.addPage he) (hG.setPageBackground _ h page)) (hG.pushPage _ id h)

theorem renderTile (gi : Nat) (group : String) (s : Session) (page : Element) :
    G s (Session.renderTile gi group s page).1 := by
  unfold Session.renderTile
  extract_lets id
  split
  · exact hG.refl s
  · next h m v he =>
    exact hG.trans (hG.trans (hG.addTile? he) (hG.setPageBackground _ h page)) (hG.pushPage _ _ h)

theorem collect {step : Session → Element → Session × List Content}
    (hstep : ∀ s e, G s (step s e).1) (es : List Element) (s : Session) :
    G s (Session.collect step es s).1 := by
  induction es generalizing s with
  | nil => exact hG.refl s
  | cons e es ih => exact hG.trans (hstep s e) (ih (step s e).1)

theorem renderGroup (s : Session) (group : Element) : G s (s.renderGroup group).1 := by
  unfold Session.renderGroup
  extract_lets id
  split
  · exact hG.refl s
  · split
    next gi m v he =>
    extract_lets s₁
    have hadded : G s s₁ := hG.addGroup he
    have htiles := hG.collect (hG.renderTile gi id)
      (tilePages group s₁.config.maxPagesPerGroup) s₁
    split
    next s₂ contents hc =>
    rw [hc] at htiles
    split
    next m' v' hf =>
    extract_lets s₃
    have hdots : G s₂ s₃ := hG.finishGroup hf
    have hlaid := hG.trans (hG.trans hadded htiles) hdots
    split
    · exact hlaid
    · next g hg =>
      have hview : s₃.Serves g.view (.tileView gi) := by
        show (s₃.nav.groups.map (·.view))[gi]? = some g.view
        rw [List.getElem?_map, hg, Option.map_some]
      exact hG.trans (hG.trans hlaid (hG.listen s₃ hview)) (hG.pushPage _ id g.view)

end LayingOut

/-- Of the session only the screen changes in a way that matters. -/
theorem layingOut_screen {R : Screen → Screen → Prop}
    (hR : Screen.Arranging R) : LayingOut fun s t => R s.screen t.screen where
  refl s := hR.refl s.screen
  trans := hR.trans
  readHead s _ _ _ := hR.refl s.screen
  addPage := hR.addPage
  addGroup := hR.addGroup
  addTile? := hR.addTile?
  finishGroup := hR.finishGroup
  setPageBackground s h page := by
    unfold Session.setPageBackground
    extract_lets color
    split
    · exact hR.refl s.screen
    · exact (hR.styling h).applyStyles s.screen _
  pushPage s _ _ := hR.refl s.screen
  listen s {_ _} _ := hR.refl s.screen

end ScreenMarkup.Session

namespace ScreenMarkup.Session

open Screen (Later)

variable {s t u : Session} {h parent : Handle}

/-! ## Building widgets -/

theorem mapScreen_grows (s : Session) {f : Screen → Screen} (hf : ∀ v, Later v (f v)) :
    Grows s (s.mapScreen f) :=
  Grows.redraw s (hf s.screen)

theorem keepZIndex_grows (s : Session) (h : Handle) (z : Int) : Grows s (s.keepZIndex h z) := by
  unfold keepZIndex
  split
  · exact Grows.rewire s (f := ({ · with zIndex := z })) (fun _ => rfl) _
  · exact Grows.aside rfl rfl rfl rfl

/-- A new control comes last, and hears what it has to. -/
theorem Grows.record (s : Session) (c : Control) (waiting : List (Handle × Int)) {r : Router}
    (hr : s.router.Keeps r)
    (hl : ∀ q ∈ r.subscriptions, ∀ e ∈ q.listeners,
      Serves { s with controls := s.controls ++ [c], pendingZ := waiting, router := r }
        q.widget e.2 ∨ ∃ p ∈ s.router.subscriptions, p.widget = q.widget ∧ e ∈ p.listeners)
    (honce : s.Tuned → r.Once Listener.reports)
    (hheard : c.obj.generation ≠ 0 →
      ∀ e ∈ c.kind.hears s.controls.length, r.Heard c.obj e.1 e.2) :
    Grows s { s with controls := s.controls ++ [c], pendingZ := waiting, router := r } := by
  have hmoves := Navigation.Moves.refl s.nav s.screen
  have hprefix : s.controls.map Control.wiring <+: (s.controls ++ [c]).map Control.wiring := by
    rw [List.map_append]
    exact List.prefix_append _ _
  refine ⟨hmoves, hprefix, hr, hl, fun hs => hs.grow hmoves hprefix hr hl (honce hs) ?_
    fun k hk hnew => absurd hk hnew⟩
  intro i d hi hd hg e he
  obtain rfl : i = s.controls.length := by
    have hlt := (List.getElem?_eq_some_iff.mp hd).1
    rw [List.length_append, List.length_singleton] at hlt
    omega
  obtain rfl : c = d := Option.some.inj (List.getElem?_concat_length.symm.trans hd)
  exact hheard hg e he

/-- A control of a kind that hears nothing is recorded. -/
theorem Grows.record_mute (s : Session) (c : Control) (waiting : List (Handle × Int))
    (hc : ∀ i, c.kind.hears i = []) :
    Grows s { s with controls := s.controls ++ [c], pendingZ := waiting } := by
  refine Grows.record s c waiting (Router.Keeps.of_eq rfl)
    (fun q hq _ he => .inr ⟨q, hq, rfl, he⟩) (fun hs => hs.once) fun _ e he => ?_
  rw [hc] at he
  cases he

theorem veiled_grows (s : Session) (c : Control) : Grows s { s with screen := s.veiled c } :=
  Grows.redraw s (Screen.later_modify s.screen _ _).ite

theorem register_grows (s : Session) {c : Control} (hc : ∀ i, c.kind.hears i = []) :
    Grows s (s.register c).2 := by
  by_cases hid : c.id = ""
  · rw [register, if_pos hid]
    exact Grows.refl s
  · obtain ⟨z, waiting, he⟩ := s.register_eq c hid
    rw [he]
    exact (veiled_grows s c).trans (Grows.record_mute _ { c with zIndex := z } waiting hc)

/-- The control that is registered has its position, and its listener finds it there. -/
theorem registerWith_grows (s : Session) {c : Control} {kinds : List ControlKind}
    {events : List EventKind} {listener : Nat → Listener} (ho : c.Owns h) (hk : c.kind ∈ kinds)
    (hc : c.Listens h events listener)
    (hl : ∀ t i, HasControl t i kinds h → t.Serves h (listener i)) :
    Grows s (s.registerWith c h events listener) := by
  unfold registerWith
  by_cases hid : c.id = ""
  · rw [register, if_pos hid]
    exact Grows.refl s
  · obtain ⟨z, waiting, he⟩ := s.register_eq c hid
    rw [he]
    have hhas : HasControl { s with
        screen := s.veiled c
        controls := s.controls ++ [{ c with zIndex := z }]
        pendingZ := waiting
        router := s.router.onAll h events (listener s.controls.length) } s.controls.length kinds h :=
      ⟨{ c with zIndex := z }, List.getElem?_concat_length, hk, ho⟩
    refine (veiled_grows s c).trans (Grows.record { s with screen := s.veiled c }
      { c with zIndex := z } waiting (s.router.onAll_keeps h events _)
      (Grows.listeners_onAll s.router events rfl (hl _ _ hhas)) (fun hs => ?_) fun hg e he => ?_)
    · refine hs.once.onAll fun hreports => ?_
      rcases hc s.controls.length with ⟨-, hevents, hmap⟩ | ⟨hmute, -⟩
      · refine ⟨hevents, fun kind hkind q hq hin => ?_⟩
        have hears := hmap ▸ List.mem_map_of_mem hkind
        exact not_serves_free (Nat.le_refl _) hears (hs.served q hq _ hin)
      · rw [hmute] at hreports
        cases hreports
    · rcases hc s.controls.length with ⟨rfl, -, hmap⟩ | ⟨-, hnone⟩
      · rw [← hmap] at he
        obtain ⟨kind, hkind, rfl⟩ := List.mem_map.mp he
        exact Router.heard_onAll hg hkind
      · rw [hnone] at he
        cases he

/-- A canvas that cannot be made was never there. -/
theorem Grows.discard {kind : WidgetKind} (hc : s.create kind parent = (h, t)) {v : Screen}
    (hv : Later t.screen v) (hshape : v.shape = t.screen.shape) :
    Grows s { t with screen := v.delete h } := by
  rw [create_eq] at hc
  cases hc
  refine Grows.redraw s fun hs => ?_
  have hmade := (Screen.later_create s.screen kind parent).trans hv
  refine Screen.Stands.delete_new hs (hmade hs) ?_ ?_
  · rw [Screen.isLive, hs.create_fresh]
    rfl
  · rw [Screen.branch?, hshape]
    exact hs.branch?_create kind parent

theorem constructing_grows : Constructing Later Grows where
  steps := Screen.steps_later
  trans := Grows.trans
  redraw s _ hv := Grows.redraw s hv
  number _ _ := Grows.aside rfl rfl rfl rfl
  create {s t kind h parent} hc := by
    rw [create_eq] at hc
    cases hc
    exact Grows.redraw s (Screen.later_create s.screen kind parent)
  discard hc ht hv := Grows.discard hc hv ht.shape
  keepZIndex := keepZIndex_grows
  register s {_} _ hc := register_grows s hc
  registerWith s {_ _ _ _ _} ho hk _ hc hl := registerWith_grows s ho hk hc hl

/-! ## Rendering -/

theorem setPageBackground_grows (s : Session) (h : Handle) (page : Element) :
    Grows s (s.setPageBackground h page) := by
  unfold setPageBackground
  extract_lets color
  split
  · exact Grows.refl s
  · exact mapScreen_grows s fun v => Screen.later_applyStyles v h _

theorem pushPage_grows (s : Session) (id : String) (h : Handle) : Grows s (s.pushPage id h) :=
  Grows.record_mute s { id := id, kind := .page, obj := h } s.pendingZ fun _ => rfl

theorem layingOut_grows : LayingOut Grows where
  refl := Grows.refl
  trans := Grows.trans
  readHead _ _ _ _ := Grows.aside rfl rfl rfl rfl
  addPage he := Grows.navigate _ (Navigation.addPage_moves he) (Navigation.addPage_keyboards he)
  addGroup he := Grows.navigate _ (Navigation.addGroup_moves he) (Navigation.addGroup_keyboards he)
  addTile? he := Grows.navigate _ (Navigation.addTile?_moves he) (Navigation.addTile?_keyboards he)
  finishGroup he :=
    Grows.navigate _ (Navigation.finishGroup_moves he) (Navigation.finishGroup_keyboards he)
  setPageBackground := setPageBackground_grows
  pushPage := pushPage_grows
  listen s {_ _} hview := Grows.listen s [.valueChanged] hview rfl

theorem showFirst_grows (s : Session) : Grows s s.showFirst := by
  unfold showFirst
  extract_lets first fallback
  have hfallback : Grows s fallback := by
    unfold fallback
    cases first with
    | none => exact Grows.refl s
    | some id => exact showPage_grows s id
  split
  · exact hfallback
  · have hshow := showPage_grows s s.head.defaultPage
    split
    · next t he =>
      rw [he] at hshow
      exact hshow
    · exact hfallback

theorem prepare_grows (s : Session) (markup : String) : Grows s (s.prepare markup) := by
  unfold prepare
  extract_lets doc app layout
  split
  next head store sheet _ =>
  extract_lets s₀
  have hhead : Grows s s₀ := Grows.aside rfl rfl rfl rfl
  have hgroups := layingOut_grows.collect layingOut_grows.renderGroup layout.groups s₀
  split
  next s₁ tiles hg =>
  have hpages := layingOut_grows.collect layingOut_grows.renderPage layout.pages s₁
  split
  next s₂ pages hp =>
  rw [hg] at hgroups
  rw [hp] at hpages
  extract_lets contents s₃ s₄
  have hbuilt : Grows s₂ s₃ :=
    Grows.foldl (fun s c => constructing_grows.buildAll c.parent c.element.children s) contents s₂
  have hstacked : Grows s₃ s₄ := Grows.redraw s₃ (Screen.later_stack s₃.screen s₃.controls)
  exact (((hhead.trans hgroups).trans hpages).trans hbuilt).trans
    (hstacked.trans (Grows.aside rfl rfl rfl rfl))

theorem render_grows (s : Session) (markup : String) : Grows s (s.render markup) :=
  (prepare_grows s markup).trans (showFirst_grows _)

end ScreenMarkup.Session
