import ScreenMarkup.Proofs.Session.Clearing
import ScreenMarkup.Proofs.Session.Hearing
import ScreenMarkup.Proofs.Session.Paging

/-!
# Turning pages

Pages are turned by a path, by a link, or by a swipe that moves the view of a
group to another tile. A swipe is heard by the group of the view and by no
other. However often pages are turned, every group stays in step.
-/

set_option autoImplicit false

namespace ScreenMarkup

/-- What turns a session from one page to another. -/
inductive Turn where
  | visit (path : String)
  | follow (href : String)
  /-- A tile of a group becomes the active one of its view, and the view reports it. -/
  | swipe (group page : Nat)

def Turn.perform (s : Session) : Turn → Session
  | visit path => (s.showPage path).2
  | follow href => (s.navigate href).2
  | swipe gi pi =>
    match s.nav.groups[gi]? with
    | none => s
    | some g =>
      match g.pages[pi]? with
      | none => s
      | some p => (s.mapScreen (·.setActiveTile g.view p.widget)).dispatch g.view .valueChanged

namespace Session

variable {s t : Session} {config : Config} {g : PageGroup} {gi pi : Nat} {p : Page} {h : Handle}
  {kind : EventKind} {l : Listener}

/-- The session after some turns, in order. -/
def turned (s : Session) (turns : List Turn) : Session := turns.foldl Turn.perform s

/-- The pages of a session with a configuration can be turned. -/
structure Turnable (config : Config) (s : Session) : Prop extends Paged s where
  wellFormed : s.WellFormed
  anchored : s.Anchored
  router : s.router.Sound
  config : s.config = config

/-! ## Who hears a view -/

/-- A listener of the view of a group is one of that group. -/
theorem Turnable.listener (hs : s.Turnable config) (hg : s.nav.groups[gi]? = some g)
    (hl : s.Serves g.view l) : l = .tileView gi := by
  have hkind := hs.wellFormed.nav.view g (List.mem_of_getElem? hg)
  rcases hs.wellFormed.serves_navigating hkind rfl hl with ⟨-, hkeyboard⟩ | ⟨j, rfl, -⟩
  · cases hkeyboard
  · have hview : (s.nav.groups.map (·.view))[j]? = some g.view := hl
    rw [List.getElem?_map] at hview
    obtain ⟨k, hk, he⟩ := Option.map_eq_some_iff.mp hview
    rw [hs.wellFormed.nav.view_unique hk hg he]

theorem Turnable.listeners (hs : s.Turnable config) (hg : s.nav.groups[gi]? = some g) :
    ∃ ls, s.router.listeners g.view .valueChanged = .tileView gi :: ls ∧
      ∀ l ∈ ls, l = .tileView gi := by
  have hlive := Screen.isLive_of_kind? (hs.wellFormed.nav.view g (List.mem_of_getElem? hg))
  refine hs.router.listeners_alone (hs.heard gi g hg)
    (hs.anchored.latest hs.wellFormed hs.router hlive) fun l hl => ?_
  obtain ⟨q, hq, hw, e, he, rfl⟩ := Router.mem_listeners hl
  exact hs.listener hg (hw ▸ hs.anchored.listener q hq e he)

/-! ## Single turns -/

/-- A view that reports something is heard without a change of anything but the navigation. -/
theorem Turnable.heardView (hw : s.WellFormed) (ha : s.Anchored) (hr : s.router.Sound)
    (hp : (s.handle h kind (.tileView gi)).Paged) (hc : s.config = config) :
    (s.handle h kind (.tileView gi)).Turnable config where
  toPaged := hp
  wellFormed := (handle_keeps hw kind (l := .tileView gi) nofun).wellFormed
  anchored := ha.grow (handle_grows s h kind _)
  router := (handle_grows s h kind _).router.sound hr
  config := hc

/-- A view that was not turned may report it. -/
theorem Turnable.handle (hs : s.Turnable config) :
    (s.handle h kind (.tileView gi)).Turnable config :=
  Turnable.heardView hs.wellFormed hs.anchored hs.router
    (hs.refocus hs.wellFormed (Navigation.swiped_frame s.nav s.screen gi)
      (Navigation.swiped_moves s.nav s.screen gi).screen
      (Navigation.swiped_inStep hs.inStep hs.wellFormed.nav hs.wellFormed.screen.toSound gi))
    hs.config

/-- The view of a group is turned to one of its tiles. -/
theorem Turnable.swipe (hs : s.Turnable config) (hg : s.nav.groups[gi]? = some g)
    (hp : g.pages[pi]? = some p) :
    ((s.mapScreen (·.setActiveTile g.view p.widget)).dispatch g.view .valueChanged).Turnable
      config := by
  have hturn : s.mapScreen (·.setActiveTile g.view p.widget) =
      (Operation.edit g.view (.scroll p.widget)).perform s := rfl
  have hgrown : Grows s (s.mapScreen (·.setActiveTile g.view p.widget)) :=
    hturn ▸ perform_grows s rfl
  obtain ⟨ls, hls, honly⟩ := hs.listeners hg
  have hfirst : ((s.mapScreen (·.setActiveTile g.view p.widget)).handle g.view .valueChanged
      (.tileView gi)).Turnable config := by
    refine Turnable.heardView (hturn ▸ hs.wellFormed.perform _) (hs.anchored.grow hgrown)
      (hgrown.router.sound hs.router) ?_ hs.config
    exact hs.refocus hs.wellFormed (Navigation.swiped_frame s.nav _ gi)
      (hgrown.moves.screen.trans (Navigation.swiped_moves s.nav _ gi).screen)
      (Navigation.swiped_turned hs.inStep hs.wellFormed.nav hs.wellFormed.screen.toSound hg hp)
  have hrest : ∀ (ls : List Listener) (t : Session), t.Turnable config →
      (∀ l ∈ ls, l = .tileView gi) →
      (ls.foldl (fun s l => s.handle g.view .valueChanged l) t).Turnable config := by
    intro ls
    induction ls with
    | nil => exact fun t ht _ => ht
    | cons l ls ih =>
      intro t ht hl
      refine ih _ ?_ fun m hm => hl m (List.mem_cons_of_mem l hm)
      rw [hl l List.mem_cons_self]
      exact ht.handle
  unfold dispatch
  rw [show (s.mapScreen (·.setActiveTile g.view p.widget)).router = s.router from rfl, hls,
    List.foldl_cons]
  exact hrest ls _ hfirst honly

theorem Turnable.show (hs : s.Turnable config) {path : String}
    (he : s.showPage path = (.ok (), t)) : t.Turnable config := by
  have ht : t = (s.showPage path).2 := by rw [he]
  obtain ⟨m, v, hd, hsame⟩ := showPage_eq he
  exact
    { toPaged := hs.toPaged.showPage hs.wellFormed he
      wellFormed := ht ▸ hs.wellFormed.perform (.showPage path)
      anchored := ht ▸ hs.anchored.perform (.showPage path)
      router := by
        rw [hsame]
        exact hs.router
      config := by
        rw [hsame]
        exact hs.config }

theorem Turnable.perform (hs : s.Turnable config) (turn : Turn) :
    (turn.perform s).Turnable config := by
  cases turn with
  | visit path =>
    show (s.showPage path).2.Turnable config
    rcases showPage_cases s path with he | he
    · rw [he]
      exact hs
    · exact hs.show he
  | follow href =>
    show (s.navigate href).2.Turnable config
    rcases navigate_cases s href with he | ⟨path, he⟩
    · rw [he]
      exact hs
    · exact hs.show he
  | swipe gi pi =>
    unfold Turn.perform
    dsimp only
    split
    · exact hs
    next g hg =>
    split
    · exact hs
    next p hp =>
    exact hs.swipe hg hp

/-! ## Runs -/

theorem Turnable.turned (hs : s.Turnable config) (turns : List Turn) :
    (s.turned turns).Turnable config := by
  induction turns generalizing s with
  | nil => exact hs
  | cons turn turns ih => exact ih (hs.perform turn)

theorem render_turnable (initial : Config) (history : List Operation) (markup : String) :
    let s := ((Session.new initial).after history).clear
    (s.render markup).Turnable s.config := by
  intro s
  have hs : s.WellFormed := ((wellFormed_new initial).after history).clear
  have ha : s.Anchored := ((Anchored.new initial).after history).perform .clear
  exact
    { toPaged := render_paged hs (fun _ _ => rfl) rfl rfl markup
      wellFormed := hs.render markup
      anchored := ha.grow (render_grows s markup)
      router := (render_grows s markup).router.sound ⟨List.nodup_nil, fun _ hq => nomatch hq⟩
      config := render_config hs markup }

/-- However pages are turned after a document was rendered on a cleared screen, there are not more
pages and tiles than allowed, the view of a group has a tile for each of its pages, the current page
of a group with pages is the active tile of its view, and a group has dots if it asked for them and
has more than one page: one for each page, of which the one of the current page stands out. -/
theorem groups_stay_in_step (initial : Config) (history : List Operation) (markup : String)
    (turns : List Turn) :
    let s := ((Session.new initial).after history).clear
    let t := (s.render markup).turned turns
    t.nav.pages.length ≤ s.config.maxPages ∧
    ∀ g ∈ t.nav.groups,
      t.screen.children g.view = g.pages.map (·.widget) ∧
      g.pages.length ≤ s.config.maxPagesPerGroup ∧
      (g.pages ≠ [] →
        ∃ p, g.pages[g.current]? = some p ∧ t.screen.activeTile? g.view = some p.widget) ∧
      (g.dots.isSome = true ↔ g.indicator = .dots ∧ 1 < g.pages.length) ∧
      ∀ d, g.dots = some d →
        (t.screen.children d).length = g.pages.length ∧
        ∀ i k, (t.screen.children d)[i]? = some k →
          ((t.screen.style k).bgColor = some PageGroup.activeColor ↔ i = g.current) := by
  intro s t
  have ht : t.Turnable s.config := (render_turnable initial history markup).turned turns
  refine ⟨ht.config ▸ ht.pages, fun g hg => ?_⟩
  have hstep := ht.inStep g hg
  refine ⟨hstep.tiles, ht.config ▸ ht.tiles g hg, hstep.active, hstep.dotted, fun d hd =>
    ⟨hstep.dots d hd, fun i k hk => ?_⟩⟩
  rw [hstep.colored d hd i k hk, Option.some.injEq]
  exact PageGroup.dotColor_eq_active

end Session
end ScreenMarkup
