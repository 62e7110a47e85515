import ScreenMarkup.Proofs.Navigation.Filling
import ScreenMarkup.Proofs.Session.GrowthBuilding

/-!
# Laying out groups and pages

A group of a document gets a view, a tile for each of its pages and perhaps
dots. Its tiles have controls before it has one itself, and it listens to its
view. A page gets a widget and a control. Whatever is on the screen before is
left alone.
-/

set_option autoImplicit false

namespace ScreenMarkup

/-- The control of a page, a tile or a group. -/
def Control.ofPage (id : String) (h : Handle) : Control := { id := id, kind := .page, obj := h }

namespace PageGroup

/-- The control of a tile goes by the path to it. -/
def tileControl (g : PageGroup) (p : Page) : Control :=
  Control.ofPage (g.id ++ "/" ++ p.id) p.widget

/-- The controls of the tiles, and then the one of the group. -/
def controls (g : PageGroup) : Controls :=
  g.pages.map g.tileControl ++ [Control.ofPage g.id g.view]

end PageGroup

namespace Session

variable {s t u : Session} {gs : List PageGroup} {g : PageGroup} {ps qs : List Page}
  {contents more : List Content}

theorem setPageBackground_eq (s : Session) (h : Handle) (page : Element) :
    ∃ v, Screen.Restyles (· = h) s.screen v ∧
      s.setPageBackground h page = { s with screen := v } := by
  unfold setPageBackground
  extract_lets color
  split
  · exact ⟨s.screen, Screen.Restyles.refl _, rfl⟩
  · exact ⟨_, Screen.setBackground_restyles s.screen h _, rfl⟩

/-! ## Tiles -/

/-- The last group of a session gets some more tiles. -/
structure Tiles (gs : List PageGroup) (g : PageGroup) (ps : List Page) (s t : Session)
    (contents : List Content) : Prop where
  nav : t.nav = { s.nav with groups := gs ++ [{ g with pages := g.pages ++ ps }] }
  filling : ({ g with pages := g.pages ++ ps } : PageGroup).Filling t.screen
  leaves : s.screen.Leaves (· = g.view) t.screen
  router : t.router = s.router
  controls : t.controls = s.controls ++ ps.map g.tileControl
  contents : contents.map (·.parent) = ps.map (·.widget)
  visible : ∀ p ∈ ps, t.screen.isLive p.widget = true ∧ t.screen.isHidden p.widget = false

theorem Tiles.refl (hn : s.nav.groups = gs ++ [g]) (hg : g.Filling s.screen) :
    Tiles gs g [] s s [] := by
  have hsame : ({ g with pages := g.pages ++ [] } : PageGroup) = g :=
    congrArg (fun pages => ({ g with pages := pages } : PageGroup)) (List.append_nil g.pages)
  refine ⟨?_, ?_, Screen.Leaves.refl _, rfl, by simp, rfl, by simp⟩
  · rw [hsame, ← hn]
  · rwa [hsame]

theorem Tiles.trans (h₁ : Tiles gs g ps s t contents) (ht : t.WellFormed)
    (h₂ : Tiles gs { g with pages := g.pages ++ ps } qs t u more) :
    Tiles gs g (ps ++ qs) s u (contents ++ more) := by
  have hpages : g.pages ++ (ps ++ qs) = g.pages ++ ps ++ qs := (List.append_assoc _ _ _).symm
  refine ⟨?_, ?_, h₁.leaves.trans h₂.leaves fun _ _ hk => hk, h₂.router.trans h₁.router, ?_, ?_,
    fun p hp => ?_⟩
  · rw [hpages, h₂.nav, h₁.nav]
  · rw [hpages]
    exact h₂.filling
  · rw [h₂.controls, h₁.controls, List.map_append, List.append_assoc]
    rfl
  · rw [List.map_append, List.map_append, h₁.contents, h₂.contents]
  · rcases List.mem_append.mp hp with hp | hp
    · obtain ⟨hlive, hvisible⟩ := h₁.visible p hp
      have hinside : p.widget ∈ t.screen.children g.view := by
        rw [h₁.filling.tiles]
        exact List.mem_map_of_mem (List.mem_append_right _ hp)
      have hne : p.widget ≠ g.view := ht.screen.toSound.parent?_ne
        (ht.screen.toSound.mem_children_iff.mp hinside)
      refine ⟨h₂.leaves.isLive hlive hne, ?_⟩
      rw [Screen.isHidden, h₂.leaves.widget _ hlive hne]
      exact hvisible
    · exact h₂.visible p hp

theorem renderTile_tiles (hs : s.WellFormed) (hn : s.nav.groups = gs ++ [g])
    (hg : g.Filling s.screen) (page : Element) :
    ∃ h, Tiles gs g [⟨page.attr "id", h⟩] s (renderTile gs.length g.id s page).1
      (renderTile gs.length g.id s page).2 := by
  have hmem : g ∈ s.nav.groups := hn ▸ List.mem_concat_self
  have hview := Screen.isLive_of_kind? (hs.nav.view g hmem)
  obtain ⟨h, m, v, he, hfresh, hm, hl, hf⟩ := Navigation.addTile?_filling hs.screen.toSound hn hview
    hg (page.attr "id") s.config.screen
  obtain ⟨hadd, -, hwell⟩ := Navigation.addTile?_spec hs.screen hs.nav he
  obtain ⟨w, hw, hback⟩ :=
    setPageBackground_eq ({ s with nav := m, screen := v } : Session) h page
  have hw : Screen.Restyles (· = h) v w := hw
  have htile : renderTile gs.length g.id s page =
      (({ s with nav := m, screen := w } : Session).pushPage (g.id ++ "/" ++ page.attr "id") h,
        [⟨page, h⟩]) := by
    simp only [renderTile, he, hback]
  have hne : g.view ≠ h := fun hsame => by
    rw [hsame, hfresh] at hview
    cases hview
  have hlater : v.isLive g.view = true := hadd.preserves.retains.isLive hview
  rw [htile]
  refine ⟨h, hm, hf.leave hw.leaves hlater hne, hl.trans hw.leaves fun k hk hsame => ?_, rfl, rfl,
    rfl, fun p hp => ?_⟩
  · rw [hsame, hfresh] at hk
    cases hk
  · rw [List.mem_singleton.mp hp]
    have hnew : s.screen.Adds h .tile w := hadd.restyle hw
    exact ⟨Screen.isLive_of_kind? hnew.kind?, hnew.isHidden⟩

/-- The tiles of a group go by the ids of its pages. -/
theorem renderTiles_tiles (es : List Element) (hs : s.WellFormed)
    (hn : s.nav.groups = gs ++ [g]) (hg : g.Filling s.screen) :
    ∃ ps, ps.map (·.id) = es.map (·.attr "id") ∧
      Tiles gs g ps s (collect (renderTile gs.length g.id) es s).1
        (collect (renderTile gs.length g.id) es s).2 := by
  induction es generalizing s g with
  | nil => exact ⟨[], rfl, Tiles.refl hn hg⟩
  | cons e es ih =>
    obtain ⟨h, hfirst⟩ := renderTile_tiles hs hn hg e
    have ht := (renderTile_places hs gs.length g.id e).1.1.wellFormed
    have hgroups : (renderTile gs.length g.id s e).1.nav.groups =
        gs ++ [{ g with pages := g.pages ++ [⟨e.attr "id", h⟩] }] := by rw [hfirst.nav]
    obtain ⟨ps, hids, hrest⟩ := ih ht hgroups hfirst.filling
    exact ⟨⟨e.attr "id", h⟩ :: ps, by rw [List.map_cons, hids]; rfl, hfirst.trans ht hrest⟩

/-- A group that has got its tiles is completed by its dots. -/
theorem Tiles.finish (ht : Tiles gs g ps s t contents) (hw : t.WellFormed) {m : Navigation}
    {v : Screen} (hf : t.nav.finishGroup t.screen gs.length = (m, v)) :
    ∃ dots, m = { s.nav with groups := gs ++ [{ g with pages := g.pages ++ ps, dots := dots }] } ∧
      t.screen.Leaves (· = Handle.screen) v ∧
      ({ g with pages := g.pages ++ ps, dots := dots } : PageGroup).InStep v := by
  have hlast : t.nav.groups = gs ++ [{ g with pages := g.pages ++ ps }] :=
    congrArg (·.groups) ht.nav
  have hkind : t.screen.kind? g.view = some .tileView :=
    hw.nav.view { g with pages := g.pages ++ ps } (hlast ▸ List.mem_concat_self)
  have hview : g.view ≠ Handle.screen := fun he => by
    rw [he, hw.screen.top] at hkind
    cases hkind
  obtain ⟨dots, hm, hdots, hstep⟩ := Navigation.finishGroup_inStep hw.screen.toSound hlast
    (Screen.isLive_of_kind? hkind) hview ht.filling hf
  refine ⟨dots, ?_, hdots, hstep⟩
  rw [hm, ht.nav]

/-! ## Groups -/

/-- A session gets one more group. -/
structure Groups (g : PageGroup) (s t : Session) (contents : List Content) : Prop where
  nav : t.nav = { s.nav with groups := s.nav.groups ++ [g] }
  named : g.id ≠ ""
  inStep : g.InStep t.screen
  limit : g.pages.length ≤ s.config.maxPagesPerGroup
  leaves : s.screen.Leaves (· = Handle.screen) t.screen
  parent : t.screen.parent? g.view = some Handle.screen
  later : g.view.generation ≠ 0
  router : t.router = s.router.on g.view .valueChanged (.tileView s.nav.groups.length)
  controls : t.controls = s.controls ++ g.controls
  contents : contents.map (·.parent) = g.pages.map (·.widget)
  visible : ∀ p ∈ g.pages, t.screen.isHidden p.widget = false

/-- A group with an id is laid out with as many of its pages as are allowed. -/
theorem renderGroup_groups (hs : s.WellFormed) (group : Element) :
    (group.attr "id" = "" ∧ s.renderGroup group = (s, [])) ∨
      ∃ g, Groups g s (s.renderGroup group).1 (s.renderGroup group).2 := by
  unfold renderGroup
  extract_lets id
  split
  · next hid => exact .inl ⟨hid, rfl⟩
  next hid =>
  right
  split
  next gi m v he =>
  extract_lets s₁
  split
  next s₂ contents hc =>
  split
  next m' v' hf =>
  extract_lets s₃
  obtain ⟨g', hadd, -, -, -, hm⟩ := Navigation.addGroup_spec hs.screen hs.nav he
  have hs₁ : s₁.WellFormed := hs.grow hadd.preserves hm
  obtain ⟨g, hid', hnone, hfresh, hlater, rfl, hnav, hleaves, hparent, hg⟩ :=
    Navigation.addGroup_filling hs.screen.toSound he
  have hgroups : s₁.nav.groups = s.nav.groups ++ [g] := congrArg (·.groups) hnav
  obtain ⟨ps, hids, htiles⟩ :=
    renderTiles_tiles (tilePages group s₁.config.maxPagesPerGroup) hs₁ hgroups hg
  have hplaced := (renderTiles_places hs₁ s.nav.groups.length g.id
    (tilePages group s₁.config.maxPagesPerGroup)).1.1
  have hgrown := layingOut_grows.collect (layingOut_grows.renderTile s.nav.groups.length g.id)
    (tilePages group s₁.config.maxPagesPerGroup) s₁
  rw [hid', hc] at htiles hplaced hgrown
  have hs₂ : s₂.WellFormed := hplaced.wellFormed
  obtain ⟨dots, hm', hdots, hstep⟩ := htiles.finish hs₂ hf
  obtain ⟨hfinish, -⟩ := finishGroup_lays hs₂ hf
  have hfound : s₃.nav.groups[s.nav.groups.length]? =
      some { g with pages := g.pages ++ ps, dots := dots } := by
    show m'.groups[_]? = _
    rw [hm', List.getElem?_concat_length]
  rw [hfound]
  have hparent₃ : s₃.screen.parent? g.view = some Handle.screen := by
    have hlater₂ := hgrown.moves.screen hs₁.screen.toSound
    have hlater₃ := (Navigation.finishGroup_moves hf).screen hs₂.screen.toSound
    have hlive₁ := hs₁.screen.toSound.live_of_parent? hparent
    rw [hlater₃.parent _ (hlater₂.live _ hlive₁), hlater₂.parent _ hlive₁]
    exact hparent
  refine ⟨{ g with pages := g.pages ++ ps, dots := dots }, ?_, hid' ▸ hid, hstep, ?_, ?_, hparent₃,
    hlater, ?_, ?_, ?_, fun p hp => ?_⟩
  · show m' = _
    rw [hm', show s₁.nav = m from rfl, hnav]
  · have hcount : ps.length = (tilePages group s.config.maxPagesPerGroup).length := by
      rw [← List.length_map (·.id), hids, List.length_map]
    rw [hnone, List.nil_append, hcount]
    exact List.length_take_le _ _
  · refine (hleaves.trans htiles.leaves fun k hk he => ?_).trans hdots fun _ _ hk => hk
    rw [he, hfresh] at hk
    cases hk
  · show s₂.router.on _ _ _ = _
    rw [htiles.router]
  · show s₂.controls ++ _ = _
    rw [htiles.controls, hnone, List.append_assoc, ← hid']
    rfl
  · rw [hnone]
    exact htiles.contents
  · rw [hnone] at hp
    obtain ⟨hlive, hvisible⟩ := htiles.visible p hp
    exact (hfinish.screen.isHidden hlive).trans hvisible

/-! ## Pages -/

/-- A session gets one more page. -/
structure Pages (p : Page) (s t : Session) (contents : List Content) : Prop where
  nav : t.nav = { s.nav with pages := s.nav.pages ++ [p] }
  named : p.id ≠ ""
  room : s.nav.pages.length < s.config.maxPages
  leaves : s.screen.Leaves (· = Handle.screen) t.screen
  parent : t.screen.parent? p.widget = some Handle.screen
  router : t.router = s.router
  controls : t.controls = s.controls ++ [Control.ofPage p.id p.widget]
  contents : contents.map (·.parent) = [p.widget]

theorem renderPage_pages (hs : s.WellFormed) (page : Element) :
    s.renderPage page = (s, []) ∨
      ∃ h, Pages ⟨page.attr "id", h⟩ s (s.renderPage page).1 (s.renderPage page).2 := by
  unfold renderPage
  extract_lets id
  split
  · exact .inl rfl
  next hroom =>
  right
  rw [not_or, Nat.not_le] at hroom
  split
  next h m v he =>
  extract_lets s₁
  obtain ⟨hadd, hm, -⟩ := Navigation.addPage_spec hs.screen hs.nav he
  obtain ⟨hleaves, hparent⟩ := Navigation.addPage_leaves hs.screen.toSound he
  obtain ⟨w, hw, hback⟩ :=
    setPageBackground_eq ({ s with nav := m, screen := v } : Session) h page
  have hw : Screen.Restyles (· = h) v w := hw
  have hs₁ : s₁ = { s with nav := m, screen := w } := hback
  rw [hs₁]
  refine ⟨h, hm, hroom.1, hroom.2, hleaves.trans hw.leaves fun k hk he => ?_,
    (Screen.parent?_congr hw.shape h).trans hparent, rfl, rfl, rfl⟩
  rw [he, Screen.isLive, hadd.fresh] at hk
  cases hk

end Session
end ScreenMarkup
