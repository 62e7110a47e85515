import ScreenMarkup.Proofs.Session.Grouping
import ScreenMarkup.Proofs.Session.Integrity
import ScreenMarkup.Proofs.Session.StackingOrder

/-!
# Groups of a document

When a document is rendered its groups come out in step with their views, and
each of them hears its own. Neither what is built on the pages nor how it is
stacked matters to them.
-/

set_option autoImplicit false

namespace ScreenMarkup

namespace Navigation

variable {n m : Navigation} {s t : Screen} {g : PageGroup} {i : Nat}

/-- The views and the tiles of groups keep their positions. -/
theorem frame_getElem? (hf : m.frame = n.frame) (hg : m.groups[i]? = some g) :
    ∃ k, n.groups[i]? = some k ∧ k.view = g.view ∧ k.pages = g.pages := by
  have hgroups : m.groups.map (fun g => (g.view, g.pages)) =
      n.groups.map fun g => (g.view, g.pages) := congrArg (fun f => f.2.1) hf
  have hpair := congrArg (·[i]?) hgroups
  simp only [List.getElem?_map, hg, Option.map_some] at hpair
  obtain ⟨k, hk, he⟩ := Option.map_eq_some_iff.mp hpair.symm
  exact ⟨k, hk, congrArg Prod.fst he, congrArg Prod.snd he⟩

theorem frame_targets (hf : m.frame = n.frame) : m.targets = n.targets := by
  have hpages : m.pages = n.pages := congrArg (fun f => f.1) hf
  have hviews := congrArg (fun f => f.2.1.map Prod.fst) hf
  simp only [frame, List.map_map] at hviews
  rw [targets, targets, hpages]
  exact congrArg _ hviews

theorem display_frame {path : String} (hd : n.display s path = .ok (m, t)) :
    m.frame = n.frame := by
  unfold display at hd
  cases hg : n.goal path with
  | error e =>
    rw [hg] at hd
    cases hd
  | ok goal =>
    rw [hg] at hd
    obtain rfl : (n.showGoal s goal).1 = m := congrArg Prod.fst (Except.ok.inj hd)
    cases goal with
    | page i => rfl
    | tile gi pi =>
      exact frame_modifyGroup (f := ({ · with current := pi })) (fun _ => ⟨rfl, rfl⟩) n gi

theorem swiped_frame (n : Navigation) (s : Screen) (gi : Nat) :
    (n.swiped s gi).1.frame = n.frame := by
  unfold swiped
  split
  · rfl
  · extract_lets active i
    exact frame_modifyGroup (f := ({ · with current := i })) (fun _ => ⟨rfl, rfl⟩) n gi

end Navigation

namespace Session

variable {s t : Session} {h : Handle} {m : Navigation} {v : Screen} {g : PageGroup}
  {contents : List Content}

/-- All groups are in step and hear their views, the limits are kept, and pages and groups stand on
the screen itself. -/
structure Paged (s : Session) : Prop where
  inStep : s.nav.InStep s.screen
  heard : ∀ i g, s.nav.groups[i]? = some g →
    s.router.Heard g.view .valueChanged (.tileView i)
  pages : s.nav.pages.length ≤ s.config.maxPages
  tiles : ∀ g ∈ s.nav.groups, g.pages.length ≤ s.config.maxPagesPerGroup
  targets : ∀ h ∈ s.nav.targets, s.screen.parent? h = some Handle.screen

theorem Paged.empty (hn : s.nav = {}) : s.Paged := by
  constructor <;> simp [hn, Navigation.InStep, Navigation.targets]

/-- The groups are in step again, and everything else about them is as before. -/
theorem Paged.refocus (hs : s.Paged) (hw : s.WellFormed) (hf : m.frame = s.nav.frame)
    (hv : Screen.Later s.screen v) (hi : m.InStep v) :
    ({ s with nav := m, screen := v } : Session).Paged where
  inStep := hi
  heard i g hg := by
    obtain ⟨k, hk, hview, -⟩ := Navigation.frame_getElem? hf hg
    exact hview ▸ hs.heard i k hk
  pages := by
    have hpages : m.pages = s.nav.pages := congrArg (fun f => f.1) hf
    show m.pages.length ≤ _
    rw [hpages]
    exact hs.pages
  tiles g hg := by
    obtain ⟨k, hk, -, hpages⟩ := Navigation.frame_group hf hg
    exact hpages ▸ hs.tiles k hk
  targets h hh := by
    rw [show ({ s with nav := m, screen := v } : Session).nav.targets = s.nav.targets from
      Navigation.frame_targets hf] at hh
    have hparent := hs.targets h hh
    have hlive := hw.screen.toSound.live_of_parent? hparent
    exact ((hv hw.screen.toSound).parent h hlive).trans hparent

/-- What leaves views and dots alone keeps the groups in step. -/
theorem WellFormed.inStep_leave (hs : s.WellFormed) (hi : s.nav.InStep s.screen)
    {H : Handle → Prop} (hl : s.screen.Leaves H v)
    (hH : ∀ k, H k → s.screen.kind? k ≠ some .tileView ∧ s.screen.kind? k ≠ some .indicator ∧
      ∀ d, s.screen.parent? k = some d → s.screen.kind? d ≠ some .indicator) :
    s.nav.InStep v := by
  intro g hg
  have hview := hs.nav.view g hg
  refine (hi g hg).leave hs.screen.toSound hl
    ⟨Screen.isLive_of_kind? hview, fun hin => (hH _ hin).1 hview⟩ fun d hd => ?_
  have hrow := hs.nav.dots g hg d hd
  exact ⟨⟨Screen.isLive_of_kind? hrow, fun hin => (hH _ hin).2.1 hrow⟩, fun k hk hin =>
    (hH _ hin).2.2 d (hs.screen.toSound.mem_children_iff.mp hk) hrow⟩

theorem WellFormed.inStep_beside (hs : s.WellFormed) (hi : s.nav.InStep s.screen)
    (hl : s.screen.Leaves (· = Handle.screen) v) : s.nav.InStep v := by
  refine hs.inStep_leave hi hl fun k hk => ?_
  rw [hk, hs.screen.top]
  refine ⟨by decide, by decide, fun d hd => ?_⟩
  rw [hs.screen.toSound.screen_parent?] at hd
  cases hd

/-! ## Laying out -/

/-- A document is laid out so far. The tiles of each group have controls, then the group has one,
and after all groups the pages have theirs. -/
structure LaidOut (s : Session) : Prop extends Paged s where
  wellFormed : s.WellFormed
  controls : s.controls = s.nav.groups.flatMap PageGroup.controls ++
    s.nav.pages.map fun p => Control.ofPage p.id p.widget
  named : ∀ g ∈ s.nav.groups, g.id ≠ ""
  visible : ∀ g ∈ s.nav.groups, ∀ p ∈ g.pages, s.screen.isHidden p.widget = false

/-- Whatever stands on a page or a target stays there. -/
theorem Grows.parent (hg : Grows s t) (hs : s.WellFormed) {p : Handle}
    (hp : s.screen.parent? h = some p) : t.screen.parent? h = some p :=
  ((hg.moves.screen hs.screen.toSound).parent h (hs.screen.toSound.live_of_parent? hp)).trans hp

/-- The groups and pages of `s` stand in `t` as they were laid out. -/
structure Abides (s t : Session) : Prop where
  inStep : ∀ g ∈ s.nav.groups, g.InStep t.screen
  heard : ∀ i g, s.nav.groups[i]? = some g → t.router.Heard g.view .valueChanged (.tileView i)
  targets : ∀ h ∈ s.nav.targets, t.screen.parent? h = some Handle.screen
  visible : ∀ g ∈ s.nav.groups, ∀ p ∈ g.pages, t.screen.isHidden p.widget = false

/-- What is added to the screen itself makes no difference to them. -/
theorem LaidOut.abides (hs : s.LaidOut) (hg : Grows s t) (ht : Lays s t)
    (hl : s.screen.Leaves (· = Handle.screen) t.screen) : Abides s t where
  inStep := hs.wellFormed.inStep_beside hs.inStep hl
  heard i g hi := hg.router.heard _ _ _ (hs.heard i g hi)
  targets h hh := hg.parent hs.wellFormed (hs.targets h hh)
  visible g hgm p hp := by
    have hlive := Screen.isLive_of_kind? (hs.wellFormed.nav.tile g hgm p hp)
    exact (ht.screen.isHidden hlive).trans (hs.visible g hgm p hp)

/-- A group that is laid out after the others is in step and hears its view, like them. -/
theorem LaidOut.addGroup (hs : s.LaidOut) (hn : s.nav.pages = []) (hgrown : Grows s t)
    (hlays : Lays s t) (hg : Groups g s t contents) : t.LaidOut := by
  have hgroups : t.nav.groups = s.nav.groups ++ [g] := congrArg (·.groups) hg.nav
  have hpages : t.nav.pages = s.nav.pages := congrArg (·.pages) hg.nav
  have hconfig : t.config = s.config := congrArg (·.config) hlays.rest
  have hmem {k : PageGroup} (hk : k ∈ t.nav.groups) : k ∈ s.nav.groups ∨ k = g := by
    rw [hgroups] at hk
    exact (List.mem_append.mp hk).imp_right List.mem_singleton.mp
  have hold : Abides s t := hs.abides hgrown hlays hg.leaves
  refine ⟨⟨?_, ?_, ?_, ?_, ?_⟩, hlays.wellFormed, ?_, ?_, ?_⟩
  · intro k hk
    rcases hmem hk with hk | rfl
    · exact hold.inStep k hk
    · exact hg.inStep
  · intro i k hk
    rw [hgroups] at hk
    rcases Nat.lt_or_ge i s.nav.groups.length with hlt | hle
    · rw [List.getElem?_append_left hlt] at hk
      exact hold.heard i k hk
    · rw [List.getElem?_append_right hle, List.getElem?_singleton] at hk
      obtain ⟨hzero, hsame⟩ := Option.ite_none_right_eq_some.mp hk
      obtain rfl : i = s.nav.groups.length := by omega
      cases hsame
      rw [hg.router]
      exact Router.heard_on hg.later
  · rw [hconfig, hpages]
    exact hs.pages
  · intro k hk
    rw [hconfig]
    rcases hmem hk with hk | rfl
    · exact hs.tiles k hk
    · exact hg.limit
  · intro h hh
    rw [Navigation.targets, hpages, hgroups, List.map_append, List.map_singleton,
      ← List.append_assoc] at hh
    rcases List.mem_append.mp hh with hh | hh
    · exact hold.targets h hh
    · rw [List.mem_singleton.mp hh]
      exact hg.parent
  · rw [hg.controls, hs.controls, hpages, hgroups, hn]
    simp
  · intro k hk
    rcases hmem hk with hk | rfl
    · exact hs.named k hk
    · exact hg.named
  · intro k hk p hp
    rcases hmem hk with hk | rfl
    · exact hold.visible k hk p hp
    · exact hg.visible p hp

/-- Content goes on the tiles of the new group, and the other tiles and pages are still there. -/
theorem Groups.isPage (hg : Groups g s t contents) :
    (∀ h, s.nav.isPage h = true → t.nav.isPage h = true) ∧
      ∀ c ∈ contents, t.nav.isPage c.parent = true := by
  have hgroups : t.nav.groups = s.nav.groups ++ [g] := congrArg (·.groups) hg.nav
  have hpages : t.nav.pages = s.nav.pages := congrArg (·.pages) hg.nav
  refine ⟨fun h => Navigation.isPage_mono (hpages ▸ List.Subset.refl _) fun k hk =>
    ⟨k, hgroups ▸ List.mem_append_left _ hk, List.Subset.refl _⟩, fun c hc => ?_⟩
  have hin : c.parent ∈ g.pages.map (·.widget) := hg.contents ▸ List.mem_map_of_mem hc
  obtain ⟨p, hp, he⟩ := List.mem_map.mp hin
  exact Navigation.isPage_iff.mpr (.inr ⟨g, hgroups ▸ List.mem_concat_self, p, hp, he⟩)

theorem LaidOut.group (hs : s.LaidOut) (hn : s.nav.pages = []) (group : Element) :
    (s.renderGroup group).1.LaidOut ∧ (s.renderGroup group).1.nav.pages = [] ∧
      (∀ h, s.nav.isPage h = true → (s.renderGroup group).1.nav.isPage h = true) ∧
      ∀ c ∈ (s.renderGroup group).2, (s.renderGroup group).1.nav.isPage c.parent = true := by
  rcases renderGroup_groups hs.wellFormed group with ⟨-, he⟩ | ⟨g, hg⟩
  · rw [he]
    exact ⟨hs, hn, fun _ hp => hp, fun _ hc => nomatch hc⟩
  · have hpages : (s.renderGroup group).1.nav.pages = s.nav.pages := congrArg (·.pages) hg.nav
    have hgrown := layingOut_grows.renderGroup s group
    exact ⟨hs.addGroup hn hgrown (renderGroup_places hs.wellFormed group).1 hg, hpages.trans hn,
      hg.isPage⟩

/-- A page that is laid out makes no difference to the groups. -/
theorem LaidOut.addPage {p : Page} (hs : s.LaidOut) (hgrown : Grows s t) (hlays : Lays s t)
    (hp : Pages p s t contents) : t.LaidOut := by
  have hgroups : t.nav.groups = s.nav.groups := congrArg (·.groups) hp.nav
  have hpages : t.nav.pages = s.nav.pages ++ [p] := congrArg (·.pages) hp.nav
  have hconfig : t.config = s.config := congrArg (·.config) hlays.rest
  have hold : Abides s t := hs.abides hgrown hlays hp.leaves
  refine ⟨⟨?_, ?_, ?_, ?_, ?_⟩, hlays.wellFormed, ?_, hgroups ▸ hs.named, ?_⟩
  · intro k hk
    rw [hgroups] at hk
    exact hold.inStep k hk
  · rw [hgroups]
    exact hold.heard
  · rw [hconfig, hpages, List.length_append]
    exact hp.room
  · rw [hconfig, hgroups]
    exact hs.tiles
  · intro k hk
    rw [Navigation.targets, hpages, hgroups] at hk
    simp only [List.map_append, List.map_singleton, List.mem_append, List.mem_singleton] at hk
    rcases hk with (hk | hk) | hk
    · exact hold.targets k (List.mem_append_left _ hk)
    · rw [hk]
      exact hp.parent
    · exact hold.targets k (List.mem_append_right _ hk)
  · rw [hp.controls, hs.controls, hpages, hgroups, List.map_append, List.append_assoc]
    rfl
  · rw [hgroups]
    exact hold.visible

theorem Pages.isPage {p : Page} (hp : Pages p s t contents) :
    (∀ h, s.nav.isPage h = true → t.nav.isPage h = true) ∧
      ∀ c ∈ contents, t.nav.isPage c.parent = true := by
  have hgroups : t.nav.groups = s.nav.groups := congrArg (·.groups) hp.nav
  have hpages : t.nav.pages = s.nav.pages ++ [p] := congrArg (·.pages) hp.nav
  refine ⟨fun k => Navigation.isPage_mono (hpages ▸ List.subset_append_left _ _) fun g hg =>
    ⟨g, hgroups ▸ hg, List.Subset.refl _⟩, fun c hc => ?_⟩
  have hin : c.parent ∈ [p.widget] := hp.contents ▸ List.mem_map_of_mem hc
  rw [List.mem_singleton.mp hin]
  exact Navigation.isPage_iff.mpr (.inl ⟨_, hpages ▸ List.mem_concat_self, rfl⟩)

theorem LaidOut.page (hs : s.LaidOut) (page : Element) :
    (s.renderPage page).1.LaidOut ∧
      (∀ h, s.nav.isPage h = true → (s.renderPage page).1.nav.isPage h = true) ∧
      ∀ c ∈ (s.renderPage page).2, (s.renderPage page).1.nav.isPage c.parent = true := by
  rcases renderPage_pages hs.wellFormed page with he | ⟨h, hp⟩
  · rw [he]
    exact ⟨hs, fun _ hp => hp, fun _ hc => nomatch hc⟩
  · have hgrown := layingOut_grows.renderPage s page
    exact ⟨hs.addPage hgrown (renderPage_places hs.wellFormed page).1 hp, hp.isPage⟩

/-- What each step of a pass keeps, the pass keeps, with the places of its content. -/
theorem collect_keeps {I : Session → Prop} {C : Session → Handle → Prop}
    {step : Session → Element → Session × List Content}
    (hstep : ∀ s e, I s → I (step s e).1 ∧ (∀ h, C s h → C (step s e).1 h) ∧
      ∀ c ∈ (step s e).2, C (step s e).1 c.parent) (es : List Element) (hs : I s) :
    I (collect step es s).1 ∧ (∀ h, C s h → C (collect step es s).1 h) ∧
      ∀ c ∈ (collect step es s).2, C (collect step es s).1 c.parent := by
  induction es generalizing s with
  | nil => exact ⟨hs, fun _ hc => hc, fun _ hc => nomatch hc⟩
  | cons e es ih =>
    obtain ⟨hfirst, hkeep, hplaces⟩ := hstep s e hs
    obtain ⟨hrest, hkeep', hplaces'⟩ := ih hfirst
    refine ⟨hrest, fun h hc => hkeep' h (hkeep h hc), fun c hc => ?_⟩
    rcases List.mem_append.mp hc with hc | hc
    · exact hkeep' _ (hplaces c hc)
    · exact hplaces' c hc

/-- Where the content of a document goes: on pages and tiles, or on the screen itself. -/
def Hall (s : Session) (h : Handle) : Prop := h = Handle.screen ∨ s.nav.isPage h = true

theorem layOut_laidOut (hs : s.WellFormed) (hn : s.nav = {}) (hc : s.controls = [])
    (markup : String) :
    (s.layOut markup).1.LaidOut ∧
      ∀ c ∈ (s.layOut markup).2, (s.layOut markup).1.Hall c.parent := by
  unfold layOut
  extract_lets doc app layout
  split
  next head store sheet hr =>
  extract_lets s₀
  have hstart : s₀.LaidOut :=
    { Paged.empty (s := s₀) hn with
      wellFormed := hs.readHead head store sheet
      controls := by simp [s₀, hn, hc]
      named := by simp [s₀, hn]
      visible := by simp [s₀, hn] }
  obtain ⟨⟨hgroups, -⟩, -, htiles⟩ := collect_keeps
    (I := fun s => s.LaidOut ∧ s.nav.pages = []) (C := fun s h => s.nav.isPage h = true)
    (fun s e hs => and_assoc.mpr (hs.1.group hs.2 e)) layout.groups
    (s := s₀) ⟨hstart, congrArg (·.pages) hn⟩
  split
  next s₁ tiles hg =>
  rw [hg] at hgroups htiles
  obtain ⟨hpages, hkeep, hcontents⟩ := collect_keeps (I := LaidOut)
    (C := fun s h => s.nav.isPage h = true) (fun s e hs => hs.page e) layout.pages hgroups
  split
  next s₂ pages hp =>
  rw [hp] at hpages hkeep hcontents
  refine ⟨hpages, fun c hm => ?_⟩
  dsimp only at hm
  split at hm
  · rw [List.mem_singleton.mp hm]
    exact .inl rfl
  · rcases List.mem_append.mp hm with hm | hm
    · exact .inr (hkeep _ (htiles c hm))
    · exact .inr (hcontents c hm)

/-! ## Building and stacking -/

/-- What is built at some places is stacked there, too. -/
theorem Fills.leaves_stacked {P : Handle → Prop} {qs : List Site}
    (hf : Fills P (fun _ => False) qs s t) (hs : s.WellFormed)
    (hpages : ∀ c ∈ s.controls, c.kind = .page) :
    s.screen.Leaves P (t.screen.stack t.controls) := by
  have hbuilt : s.screen.Leaves P t.screen :=
    (hf.plants.leaves hs.screen.toSound hf.builds.screen).mono fun k _ hk => hk.resolve_right id
  refine hbuilt.trans ((hf.builds.wellFormed hs).screen.leaves_stack t.controls) ?_
  rintro k hk ⟨c, hc, hpage, hin⟩
  have hmem : c.target ∈ (qs.map Site.planting).map (·.2) :=
    (hf.targets_sublist hpages).subset
      (List.mem_map_of_mem (List.mem_filter.mpr ⟨hc, by rw [hpage]; rfl⟩))
  obtain ⟨e, he, htarget⟩ := List.mem_map.mp hmem
  have hsound := hf.plants.sound
  have hsame : e.1 = k := Option.some.inj
    ((hsound.mem_children_iff.mp (hf.plants.mem_children he)).symm.trans
      (htarget ▸ hsound.mem_children_iff.mp hin))
  exact hsame ▸ hf.plants.within e he (hsame ▸ hk)

theorem Paged.hall (hp : s.Paged) (hs : s.WellFormed) (hh : s.Hall h) :
    s.screen.kind? h ≠ some .tileView ∧ s.screen.kind? h ≠ some .indicator ∧
      ∀ d, s.screen.parent? h = some d → s.screen.kind? d ≠ some .indicator := by
  have hparent {p : Handle} {k : WidgetKind} (hp : s.screen.parent? h = some p)
      (hk : s.screen.kind? p = some k) (hne : k ≠ .indicator) (d : Handle)
      (hd : s.screen.parent? h = some d) : s.screen.kind? d ≠ some .indicator := by
    obtain rfl : p = d := Option.some.inj (hp.symm.trans hd)
    rw [hk]
    exact fun he => hne (Option.some.inj he)
  rcases hh with rfl | hpage
  · rw [hs.screen.top]
    refine ⟨by decide, by decide, fun d hd => ?_⟩
    rw [hs.screen.toSound.screen_parent?] at hd
    cases hd
  · rcases Navigation.isPage_iff.mp hpage with ⟨p, hmem, rfl⟩ | ⟨g, hg, p, hmem, rfl⟩
    · rw [hs.nav.page p hmem]
      have hup := hp.targets p.widget (List.mem_append_left _ (List.mem_map_of_mem hmem))
      exact ⟨by decide, by decide, hparent hup hs.screen.top (by decide)⟩
    · rw [hs.nav.tile g hg p hmem]
      have hin : p.widget ∈ s.screen.children g.view := by
        rw [(hp.inStep g hg).tiles]
        exact List.mem_map_of_mem hmem
      exact ⟨by decide, by decide, hparent (hs.screen.toSound.mem_children_iff.mp hin)
        (hs.nav.view g hg) (by decide)⟩

theorem LaidOut.kind (hs : s.LaidOut) : ∀ c ∈ s.controls, c.kind = .page := by
  intro c hc
  rw [hs.controls] at hc
  simp only [List.mem_append, List.mem_flatMap, List.mem_map, PageGroup.controls,
    List.mem_singleton] at hc
  rcases hc with ⟨g, -, ⟨p, -, rfl⟩ | rfl⟩ | ⟨p, -, rfl⟩ <;> rfl

/-- From the layout of a document to its first page nothing is lost. -/
theorem layOut_grows (s : Session) (markup : String) :
    Grows (s.layOut markup).1 (s.prepare markup) := by
  have hbuilt : Grows (s.layOut markup).1
      (buildContents (s.layOut markup).2 (s.layOut markup).1) :=
    Grows.foldl
      (fun s (c : Content) => constructing_grows.buildAll c.parent c.element.children s) _ _
  rw [prepare_eq]
  exact (hbuilt.trans (Grows.redraw _ (Screen.later_stack _ _))).trans
    (Grows.aside rfl rfl rfl rfl)

theorem layOut_prepare (hs : s.WellFormed) (markup : String) :
    (s.prepare markup).nav = (s.layOut markup).1.nav ∧
      (s.prepare markup).config = (s.layOut markup).1.config := by
  obtain ⟨⟨head, store, sheet, hl⟩, hhosts⟩ := layOut_hosts hs markup
  have hb := contents_builds hl.wellFormed fun c hc => (hhosts c hc).holds
  rw [prepare_eq]
  exact ⟨hb.nav, congrArg (·.config) hb.rest⟩

/-- The groups of a document are in step before a page is shown. -/
theorem prepare_paged (hs : s.WellFormed) (hz : s.Waits) (hn : s.nav = {}) (hc : s.controls = [])
    (markup : String) : (s.prepare markup).Paged := by
  obtain ⟨hlaid, hhalls⟩ := layOut_laidOut hs hn hc markup
  obtain ⟨hnav, hconfig⟩ := layOut_prepare hs markup
  have hgrown := layOut_grows s markup
  have hleaves := (sites_fill hs hz markup).leaves_stacked hlaid.wellFormed hlaid.kind
  have hstep : (s.layOut markup).1.nav.InStep (s.prepare markup).screen :=
    hlaid.wellFormed.inStep_leave hlaid.inStep hleaves fun k ⟨c, hm, he⟩ =>
      he ▸ hlaid.hall hlaid.wellFormed (hhalls c hm)
  refine ⟨hnav ▸ hstep, fun i g hg => ?_, ?_, ?_, fun h hh => ?_⟩
  · rw [hnav] at hg
    exact hgrown.router.heard _ _ _ (hlaid.heard i g hg)
  · rw [hnav, hconfig]
    exact hlaid.pages
  · rw [hnav, hconfig]
    exact hlaid.tiles
  · rw [hnav] at hh
    exact hgrown.parent hlaid.wellFormed (hlaid.targets h hh)

/-! ## Showing a page -/

theorem showPage_eq {path : String} (he : s.showPage path = (.ok (), t)) :
    ∃ m v, s.nav.display s.screen path = .ok (m, v) ∧ t = { s with nav := m, screen := v } := by
  unfold showPage at he
  cases hd : s.nav.display s.screen path with
  | error e =>
    rw [hd] at he
    cases he
  | ok r =>
    rw [hd] at he
    exact ⟨r.1, r.2, rfl, (congrArg Prod.snd he).symm⟩

theorem Paged.showPage (hp : s.Paged) (hs : s.WellFormed) {path : String}
    (he : s.showPage path = (.ok (), t)) : t.Paged := by
  obtain ⟨m, v, hd, rfl⟩ := showPage_eq he
  exact hp.refocus hs (Navigation.display_frame hd) (Navigation.display_moves hd).screen
    (Navigation.display_inStep hp.inStep hs.nav hs.screen.toSound hd)

theorem render_paged (hs : s.WellFormed) (hz : s.Waits) (hn : s.nav = {}) (hc : s.controls = [])
    (markup : String) : (s.render markup).Paged := by
  have hprepared := prepare_paged hs hz hn hc markup
  rw [render_eq]
  rcases showFirst_cases (s.prepare markup) with he | ⟨path, he⟩
  · rw [he]
    exact hprepared
  · exact hprepared.showPage (hs.prepare markup) he

end Session
end ScreenMarkup
