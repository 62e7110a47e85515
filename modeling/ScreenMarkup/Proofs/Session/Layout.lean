import ScreenMarkup.Proofs.Navigation.Construction
import ScreenMarkup.Proofs.Session.Document
import ScreenMarkup.Session.Render

/-!
# Laying out pages

The first passes of a rendering make groups, tiles and pages. They are all
visible until one is shown, and their controls depend on no variable.
-/

set_option autoImplicit false

namespace ScreenMarkup.Session

variable {s t u : Session} {h : Handle} {m : Navigation} {v : Screen}

/-- Nothing was ever shown, and so nothing was hidden. -/
structure Unshown (s : Session) : Prop where
  page : s.nav.currentPage = none
  group : s.nav.currentGroup = none
  keyboards : s.nav.keyboards = []
  visible : ∀ h ∈ s.nav.targets ++ s.nav.allDots, s.screen.isHidden h = false

/-- `t` is `s` with more pages and groups. -/
structure Lays (s t : Session) : Prop where
  wellFormed : t.WellFormed
  screen : s.screen.Preserves t.screen
  rest : t = { s with
    screen := t.screen, controls := t.controls, router := t.router, nav := t.nav }
  controls : ∃ new, t.controls = s.controls ++ new ∧ ∀ c ∈ new, c.kind = .page
  unclaimed : ∀ h, s.screen.isLive h = true → (∀ c ∈ s.controls, ¬ c.Owns h) →
    ∀ c ∈ t.controls, ¬ c.Owns h
  unshown : s.Unshown → t.Unshown

theorem Lays.refl (hs : s.WellFormed) : Lays s s where
  wellFormed := hs
  screen := Screen.Preserves.refl hs.screen
  rest := rfl
  controls := ⟨[], by simp, by simp⟩
  unclaimed _ _ hu := hu
  unshown hu := hu

theorem Lays.trans (h₁ : Lays s t) (h₂ : Lays t u) : Lays s u where
  wellFormed := h₂.wellFormed
  screen := h₁.screen.trans h₂.screen
  rest := by
    rw [h₂.rest]
    conv_lhs => rw [h₁.rest]
  controls := by
    obtain ⟨new₁, he₁, hk₁⟩ := h₁.controls
    obtain ⟨new₂, he₂, hk₂⟩ := h₂.controls
    refine ⟨new₁ ++ new₂, by rw [he₂, he₁, List.append_assoc], fun c hc => ?_⟩
    rcases List.mem_append.mp hc with hc | hc
    · exact hk₁ c hc
    · exact hk₂ c hc
  unclaimed h hl hu := h₂.unclaimed h (h₁.screen.retains.isLive hl) (h₁.unclaimed h hl hu)
  unshown hu := h₂.unshown (h₁.unshown hu)

theorem Lays.holds (hl : Lays s t) (hp : s.Holds h) : t.Holds h := hp.retain hl.screen.retains

/-! ## Single steps -/

theorem WellFormed.grow (hs : s.WellFormed) (hp : s.screen.Preserves v) (hm : m.WellFormed v) :
    ({ s with nav := m, screen := v } : Session).WellFormed where
  screen := hp.wellFormed
  fits c hc := (hs.fits c hc).retain hp.retains
  apart := hs.apart
  nav := hm
  keyboard r hr l hl hk := hp.retains.kind _ _ (hs.keyboard r hr l hl hk)

/-- The navigation grows by what is visible. -/
theorem Lays.grow (hs : s.WellFormed) (hp : s.screen.Preserves v) (hm : m.WellFormed v)
    (hpage : m.currentPage = s.nav.currentPage) (hgroup : m.currentGroup = s.nav.currentGroup)
    (hkeyboards : m.keyboards = s.nav.keyboards)
    (hnew : ∀ h ∈ m.targets ++ m.allDots, h ∈ s.nav.targets ++ s.nav.allDots ∨
      v.isHidden h = false) : Lays s { s with nav := m, screen := v } where
  wellFormed := hs.grow hp hm
  screen := hp
  rest := rfl
  controls := ⟨[], by simp, by simp⟩
  unclaimed _ _ hu := hu
  unshown hu :=
    { page := hpage.trans hu.page
      group := hgroup.trans hu.group
      keyboards := hkeyboards.trans hu.keyboards
      visible := by
        intro h hh
        rcases hnew h hh with hold | hvisible
        · have hl : s.screen.isLive h = true := by
            rcases List.mem_append.mp hold with hold | hold
            · exact hs.nav.target_live hold
            · exact Screen.isLive_of_kind? (hs.nav.dots_kind hold)
          rw [← hu.visible h hold]
          exact hp.isHidden hl
        · exact hvisible }

theorem Lays.restyle (hs : s.WellFormed) {H : Handle → Prop} (hr : Screen.Restyles H s.screen v) :
    Lays s { s with screen := v } :=
  have hp := hr.preserves hs.screen
  Lays.grow hs hp (hs.nav.retain hp.retains) rfl rfl rfl fun _ hh => .inl hh

theorem setPageBackground_nav (s : Session) (h : Handle) (page : Element) :
    (s.setPageBackground h page).nav = s.nav := by
  unfold setPageBackground
  extract_lets color
  split <;> rfl

theorem setPageBackground_lays (hs : s.WellFormed) (h : Handle) (page : Element) :
    Lays s (s.setPageBackground h page) := by
  unfold setPageBackground
  extract_lets color
  split
  · exact Lays.refl hs
  · exact Lays.restyle hs (Screen.setBackground_restyles s.screen h _)

/-- No control owns what is not there. -/
theorem WellFormed.unclaimed (hs : s.WellFormed) (hh : s.screen.widget? h = none) :
    ∀ c ∈ s.controls, ¬ c.Owns h := by
  intro c hc ho
  have hl := (hs.fits c hc).live ho
  rw [Screen.isLive, hh] at hl
  cases hl

theorem owns_page {id : String} {k : Handle}
    (ho : ({ id := id, kind := .page, obj := h } : Control).Owns k) : h = k := by
  rcases ho with ho | ho
  · exact ho
  · cases ho

/-- A widget that no control owns may get one as a page. -/
theorem WellFormed.pushPage (hs : s.WellFormed) (id : String) {kind : WidgetKind}
    (hk : s.screen.kind? h = some kind) (hn : kind.navigates = true)
    (hu : ∀ c ∈ s.controls, ¬ c.Owns h) : (s.pushPage id h).WellFormed where
  screen := hs.screen
  fits c hc := by
    rcases List.mem_append.mp hc with hc | hc
    · exact hs.fits c hc
    · rw [List.mem_singleton.mp hc]
      exact
        { kind := fun k ho => ⟨kind, owns_page ho ▸ hk, by simp [hn]⟩
          label := fun ht => absurd rfl ht
          bound := fun hb => absurd rfl hb
          page := fun _ => ⟨rfl, rfl, rfl, rfl, rfl, rfl⟩ }
  apart := by
    apply List.pairwise_append.mpr
    refine ⟨hs.apart, List.pairwise_singleton _ _, fun c hc d hd k hoc hod => ?_⟩
    rw [List.mem_singleton.mp hd] at hod
    exact hu c hc (owns_page hod ▸ hoc)
  nav := hs.nav
  keyboard := hs.keyboard

/-- A widget that is new to `s` gets its control. -/
theorem Lays.pushPage (hl : Lays s t) (id : String) {kind : WidgetKind}
    (hfresh : s.screen.widget? h = none) (hk : t.screen.kind? h = some kind)
    (hn : kind.navigates = true) (hu : ∀ c ∈ t.controls, ¬ c.Owns h) :
    Lays s (t.pushPage id h) where
  wellFormed := hl.wellFormed.pushPage id hk hn hu
  screen := hl.screen
  rest := by
    conv_lhs => rw [Session.pushPage, hl.rest]
    rfl
  controls := by
    obtain ⟨new, he, hnew⟩ := hl.controls
    refine ⟨new ++ [{ id := id, kind := .page, obj := h }], ?_, ?_⟩
    · show t.controls ++ _ = _
      rw [he, List.append_assoc]
    · intro c hc
      rcases List.mem_append.mp hc with hc | hc
      · exact hnew c hc
      · rw [List.mem_singleton.mp hc]
  unclaimed k hlive hold c hc := by
    rcases List.mem_append.mp hc with hc | hc
    · exact hl.unclaimed k hlive hold c hc
    · rw [List.mem_singleton.mp hc]
      intro ho
      rw [← owns_page ho, Screen.isLive, hfresh] at hlive
      cases hlive
  unshown hu := { hl.unshown hu with }

theorem Lays.listen (hl : Lays s t) (k : Handle) (kind : EventKind) {l : Listener}
    (hk : l ≠ .keyboard) : Lays s { t with router := t.router.on k kind l } where
  wellFormed :=
    { hl.wellFormed with
      keyboard := fun r hr e he hek => by
        have hr : r ∈ (t.router.onAll k [kind] l).subscriptions := hr
        rcases Router.mem_onAll hr he with ⟨-, hnew⟩ | ⟨q, hq, hw, hqe⟩
        · exact absurd (hnew.symm.trans hek) hk
        · rw [← hw]
          exact hl.wellFormed.keyboard q hq e hqe hek }
  screen := hl.screen
  rest := by
    conv_lhs => rw [hl.rest]
  controls := hl.controls
  unclaimed := hl.unclaimed
  unshown hu := { hl.unshown hu with }

/-! ## Passes -/

/-- A pass lays out pages, and tells where their content goes. -/
def Places (s : Session) (r : Session × List Content) : Prop :=
  Lays s r.1 ∧ ∀ c ∈ r.2, r.1.Holds c.parent

theorem Places.nothing (hs : s.WellFormed) : Places s (s, []) :=
  ⟨Lays.refl hs, fun _ hc => nomatch hc⟩

/-- What each step of a pass keeps, the pass keeps. -/
theorem collect_places {P : Session → Session → Prop} (hrefl : ∀ s, P s s)
    (htrans : ∀ s t u, P s t → P t u → P s u)
    {step : Session → Element → Session × List Content}
    (hstep : ∀ s e, s.WellFormed → Places s (step s e) ∧ P s (step s e).1)
    (es : List Element) (hs : s.WellFormed) :
    Places s (collect step es s) ∧ P s (collect step es s).1 := by
  induction es generalizing s with
  | nil => exact ⟨Places.nothing hs, hrefl s⟩
  | cons e es ih =>
    obtain ⟨⟨hl, hc⟩, hp⟩ := hstep s e hs
    obtain ⟨⟨hl', hc'⟩, hp'⟩ := ih hl.wellFormed
    refine ⟨⟨hl.trans hl', fun c hm => ?_⟩, htrans _ _ _ hp hp'⟩
    rcases List.mem_append.mp hm with hm | hm
    · exact hl'.holds (hc c hm)
    · exact hc' c hm

/-- A new page or tile gets its background and its control. -/
theorem Lays.place (hs : s.WellFormed) {kind : WidgetKind} (hadd : s.screen.Adds h kind v)
    (hn : kind.navigates = true) (hgrow : Lays s { s with nav := m, screen := v })
    (id : String) (page : Element) :
    Lays s ((({ s with nav := m, screen := v } : Session).setPageBackground h page).pushPage id h)
      ∧ (({ s with nav := m, screen := v } : Session).setPageBackground h page).screen.kind? h =
        some kind := by
  have hback := setPageBackground_lays hgrow.wellFormed h page
  have hkind := hback.screen.retains.kind h kind hadd.kind?
  exact ⟨(hgrow.trans hback).pushPage id hadd.fresh hkind hn
    (hback.unclaimed h (Screen.isLive_of_kind? hadd.kind?) (hs.unclaimed hadd.fresh)), hkind⟩

theorem renderPage_places (hs : s.WellFormed) (page : Element) :
    Places s (s.renderPage page) := by
  unfold renderPage
  extract_lets id
  split
  · exact Places.nothing hs
  · split
    next h m v he =>
    extract_lets s₁
    obtain ⟨hadd, rfl, hm⟩ := Navigation.addPage_spec hs.screen hs.nav he
    have hgrow := Lays.grow hs hadd.preserves hm rfl rfl rfl fun k hk => by
      simp only [Navigation.targets, List.map_append, List.mem_append] at hk ⊢
      rcases hk with ((hk | hk) | hk) | hk
      · exact .inl (.inl (.inl hk))
      · rw [List.map_singleton, List.mem_singleton] at hk
        exact .inr (hk ▸ hadd.isHidden)
      · exact .inl (.inl (.inr hk))
      · exact .inl (.inr hk)
    obtain ⟨hl, hkind⟩ := Lays.place hs hadd rfl hgrow id page
    refine ⟨hl, fun c hc => ?_⟩
    rw [List.mem_singleton.mp hc]
    exact ⟨.page, hkind, rfl⟩

theorem renderTile_places (hs : s.WellFormed) (gi : Nat) (group : String) (page : Element) :
    Places s (renderTile gi group s page) ∧
      (renderTile gi group s page).1.nav.groups.map (·.view) = s.nav.groups.map (·.view) := by
  unfold renderTile
  extract_lets id
  split
  · exact ⟨Places.nothing hs, rfl⟩
  · next h m v he =>
    extract_lets s₁
    obtain ⟨hadd, rfl, hm⟩ := Navigation.addTile?_spec hs.screen hs.nav he
    have hviews := Navigation.modifyGroup_views s.nav gi
      (fun g => { g with pages := g.pages ++ [⟨id, h⟩] }) fun _ => rfl
    have hgrow := Lays.grow hs hadd.preserves hm rfl rfl rfl fun k hk => by
      rcases List.mem_append.mp hk with hk | hk
      · exact .inl (List.mem_append_left _ (Navigation.mem_modifyGroup_targets hk fun _ => rfl))
      · have hold := Navigation.mem_modifyGroup_dots (d := []) hk fun _ _ _ hd => .inl hd
        exact .inl (List.mem_append_right _ (by simpa using hold))
    obtain ⟨hl, hkind⟩ := Lays.place hs hadd rfl hgrow (group ++ "/" ++ id) page
    refine ⟨⟨hl, fun c hc => ?_⟩, ?_⟩
    · rw [List.mem_singleton.mp hc]
      exact ⟨.tile, hkind, rfl⟩
    · show s₁.nav.groups.map _ = _
      rw [setPageBackground_nav]
      exact hviews

theorem renderTiles_places (hs : s.WellFormed) (gi : Nat) (group : String) (es : List Element) :
    Places s (collect (renderTile gi group) es s) ∧
      (collect (renderTile gi group) es s).1.nav.groups.map (·.view) = s.nav.groups.map (·.view) :=
  collect_places (P := fun s t => t.nav.groups.map (·.view) = s.nav.groups.map (·.view))
    (fun _ => rfl) (fun _ _ _ h₁ h₂ => Eq.trans h₂ h₁)
    (fun _ e hs => renderTile_places hs gi group e) es hs

/-- The dots of a group are visible like its view. -/
theorem finishGroup_lays (hs : s.WellFormed) {gi : Nat}
    (he : s.nav.finishGroup s.screen gi = (m, v)) :
    Lays s { s with nav := m, screen := v } ∧
      m.groups.map (·.view) = s.nav.groups.map (·.view) := by
  rcases Navigation.finishGroup_spec hs.screen hs.nav he with ⟨rfl, rfl⟩ | ⟨row, hadd, rfl, hm⟩
  · exact ⟨Lays.refl hs, rfl⟩
  · refine ⟨Lays.grow hs hadd.preserves hm rfl rfl rfl fun k hk => ?_,
      Navigation.modifyGroup_views _ _ _ fun _ => rfl⟩
    rcases List.mem_append.mp hk with hk | hk
    · exact .inl (List.mem_append_left _ (Navigation.mem_modifyGroup_targets hk fun _ => rfl))
    · rcases Navigation.mem_modifyGroup_dots (d := [row]) hk
        fun _ _ _ hd => .inr (by simpa using hd.symm) with hk | hk
      · exact .inl (List.mem_append_right _ hk)
      · rw [List.mem_singleton.mp hk]
        exact .inr hadd.isHidden

theorem renderGroup_places (hs : s.WellFormed) (group : Element) :
    Places s (s.renderGroup group) := by
  unfold renderGroup
  extract_lets id
  split
  · exact Places.nothing hs
  · split
    next gi m v he =>
    extract_lets s₁
    split
    next s₂ contents hc =>
    split
    next m' v' hf =>
    extract_lets s₃
    obtain ⟨g, hadd, hdots, hgi, rfl, hm⟩ := Navigation.addGroup_spec hs.screen hs.nav he
    have hgrow : Lays s s₁ := Lays.grow hs hadd.preserves hm rfl rfl rfl fun k hk => by
      simp only [Navigation.targets, Navigation.allDots, List.map_append, List.filterMap_append,
        List.mem_append, List.map_singleton, List.mem_singleton, List.filterMap_cons, hdots,
        List.filterMap_nil, List.not_mem_nil, or_false] at hk ⊢
      rcases hk with (hk | hk | hk) | hk
      · exact .inl (.inl (.inl hk))
      · exact .inl (.inl (.inr hk))
      · exact .inr (hk ▸ hadd.isHidden)
      · exact .inl (.inr hk)
    obtain ⟨⟨htiles, hcontents⟩, hviews⟩ := renderTiles_places hgrow.wellFormed gi id
      (tilePages group s₁.config.maxPagesPerGroup)
    rw [hc] at htiles hcontents hviews
    obtain ⟨hfinish, hviews'⟩ := finishGroup_lays htiles.wellFormed hf
    have hl := (hgrow.trans htiles).trans hfinish
    have hlater : ∀ c ∈ contents, s₃.Holds c.parent := fun c hc => hfinish.holds (hcontents c hc)
    split
    · exact ⟨hl, hlater⟩
    · next g' hg' =>
      have hview : g'.view = g.view := by
        have hviews : (s.nav.groups ++ [g]).map (·.view) = m'.groups.map (·.view) :=
          hviews.symm.trans hviews'.symm
        have hlast : (m'.groups.map (·.view))[gi]? = some g.view := by
          rw [← hviews, hgi]
          simp
        rw [List.getElem?_map, hg', Option.map_some] at hlast
        exact Option.some.inj hlast
      have hkind := (htiles.trans hfinish).screen.retains.kind _ _ hadd.kind?
      have hfree := (htiles.trans hfinish).unclaimed g.view (Screen.isLive_of_kind? hadd.kind?)
        (hs.unclaimed hadd.fresh)
      have hlisten := hl.listen g'.view .valueChanged (l := .tileView gi) fun hk => by cases hk
      rw [hview] at hlisten ⊢
      exact ⟨hlisten.pushPage id hadd.fresh hkind rfl hfree, hlater⟩

end ScreenMarkup.Session
