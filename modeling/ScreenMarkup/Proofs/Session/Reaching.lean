import ScreenMarkup.Proofs.Navigation.Choices
import ScreenMarkup.Proofs.Session.Paging
import ScreenMarkup.Proofs.Session.TopRuns

/-!
# Showing what was registered

A rendered document registers its groups, tiles and pages before any of its
widgets, and the first of them with an id is found by it. To show it by its id
brings it to the screen, with all that is around it.
-/

set_option autoImplicit false

namespace ScreenMarkup

/-! ## What is seen -/

namespace Screen

variable {s t : Screen} {h p : Handle}

theorem Sound.ancestors_eq (hs : s.Sound) (hp : s.parent? h = some p) :
    s.ancestors h = p :: s.ancestors p := by
  obtain ⟨as, ha⟩ := parent?_eq_some.mp hp
  rw [ancestors, ancestors, ha, (Branch.above?_cons s.shape hs.nodup ha).1]
  rfl

theorem Sound.isVisible_screen (hs : s.Sound) (hh : s.isHidden Handle.screen = false) :
    s.isVisible Handle.screen = true := by
  have hnone : s.ancestors Handle.screen = [] := by
    rw [ancestors, Branch.above?_eq_nil.mpr hs.root.symm]
    rfl
  simp [isVisible, hnone, hs.screen_live, hh]

/-- A widget in a visible one is visible if it is not hidden itself. -/
theorem Sound.isVisible_inside (hs : s.Sound) (hp : s.parent? h = some p)
    (hh : s.isHidden h = false) (hv : s.isVisible p = true) : s.isVisible h = true := by
  have hlive := hs.live_of_parent? hp
  unfold isVisible at hv ⊢
  rw [hs.ancestors_eq hp, List.all_cons, hv, hlive, hh]
  rfl

end Screen

namespace Navigation

variable {n m : Navigation} {s t : Screen} {g : PageGroup} {p : Page} {h : Handle} {gi pi : Nat}
  {path : String}

/-! ## What showing leaves alone -/

/-- Pages and groups, whichever of their pages are the current ones. -/
def still (n : Navigation) : List Page × List PageGroup :=
  (n.pages, n.groups.map ({ · with current := 0 }))

theorem display_still (hd : n.display s path = .ok (m, t)) : m.still = n.still := by
  unfold display at hd
  cases hg : n.goal path with
  | error e =>
    rw [hg] at hd
    cases hd
  | ok goal =>
    rw [hg] at hd
    obtain rfl : (n.showGoal s goal).1 = m := congrArg Prod.fst (Except.ok.inj hd)
    cases goal with
    | page i => rfl
    | tile gi pi =>
      show (n.modifyGroup gi ({ · with current := pi })).still = n.still
      rcases n.modifyGroup_cases gi ({ · with current := pi }) with he | ⟨gs, g, ks, hg, -, he⟩
      · rw [he]
      · rw [he]
        simp [still, hg]

theorem still_group (hs : m.still = n.still) (hg : g ∈ m.groups) :
    ∃ k ∈ n.groups, k.id = g.id ∧ k.pages = g.pages := by
  have hgroups : m.groups.map ({ · with current := 0 }) =
      n.groups.map ({ · with current := 0 }) := congrArg Prod.snd hs
  obtain ⟨k, hk, he⟩ := List.mem_map.mp (hgroups ▸ List.mem_map_of_mem hg)
  have hid := congrArg PageGroup.id he
  have hpages := congrArg PageGroup.pages he
  exact ⟨k, hk, hid, hpages⟩

end Navigation

/-- The control that something registers by its id. -/
def Choice.control (x : Choice) : Control := Control.ofPage x.id x.widget

namespace Navigation

variable {n m : Navigation} {s t : Screen} {g : PageGroup} {p : Page} {h : Handle} {gi pi : Nat}
  {path : String}

theorem choices_control (n : Navigation) :
    n.choices.map Choice.control = n.groups.flatMap PageGroup.controls ++
      n.pages.map fun p => Control.ofPage p.id p.widget := by
  rw [choices, List.map_append, List.map_flatMap, List.map_map]
  congr 2
  funext g
  rw [PageGroup.choices, List.map_append, List.map_map]
  rfl

theorem choices_congr (hs : m.still = n.still) :
    m.choices.map Choice.control = n.choices.map Choice.control := by
  have hgroups (gs : List PageGroup) : gs.flatMap PageGroup.controls =
      (gs.map ({ · with current := 0 })).flatMap PageGroup.controls := by
    rw [List.flatMap_map]
    rfl
  have hpages : m.pages = n.pages := congrArg Prod.fst hs
  have hgs : m.groups.map ({ · with current := 0 }) = n.groups.map ({ · with current := 0 }) :=
    congrArg Prod.snd hs
  rw [choices_control, choices_control, hpages, hgroups m.groups, hgs, ← hgroups]

/-- Tiles are not hidden, their group is. -/
theorem WellFormed.isHidden_tile (hn : n.WellFormed s) (hk : s.kind? h = some .tile)
    (pages groups : Nat → Bool) {es : List (Handle × Bool)} (hes : ∀ e, e ∈ es ↔
      e ∈ n.pageFlags pages ∨ e ∈ n.groupFlags groups ∨ e ∈ n.keyboardFlags) :
    (s.setHiddens es).isHidden h = s.isHidden h := by
  have hflagged {e : Handle × Bool} (he : e ∈ es) :
      ∃ kind, n.Flagged pages groups kind e.1 e.2 :=
    (n.flagged_iff pages groups e).mpr ((hes e).mp he)
  refine Screen.isHidden_setHiddens (fun e he => ?_) (fun c hc => ?_) (.inr rfl)
  · obtain ⟨kind, hf⟩ := hflagged he
    exact Screen.isLive_of_kind? (hn.flagged_kind hf).1
  · obtain ⟨kind, hf⟩ := hflagged hc
    obtain rfl : kind = .tile := Option.some.inj ((hn.flagged_kind hf).1.symm.trans hk)
    cases hf

theorem display_isHidden_tile (hn : n.WellFormed s) (hd : n.display s path = .ok (m, t))
    (hk : s.kind? h = some .tile) : t.isHidden h = s.isHidden h := by
  unfold display at hd
  cases hg : n.goal path with
  | error e =>
    rw [hg] at hd
    cases hd
  | ok goal =>
    rw [hg] at hd
    obtain rfl : (n.showGoal s goal).2 = t := congrArg Prod.snd (Except.ok.inj hd)
    cases goal with
    | page i =>
      show (n.showPage s i).2.isHidden h = _
      rw [showPage, hideGroups_eq, hideKeyboards_eq, hidePages_eq, setHiddens_append,
        setHiddens_append]
      refine hn.isHidden_tile hk (fun j => decide (j ≠ i)) (fun _ => true) fun e => ?_
      simp only [List.mem_append]
      tauto
    | tile gi pi =>
      obtain ⟨g, p, hgroup, hp⟩ := follow_tile hg
      show (n.showTile s gi pi).2.isHidden h = _
      rw [showTile_eq hgroup hp, (highlight_restyles _ _ _).isHidden,
        (Screen.setActiveTile_restyles _ _ _).isHidden]
      refine hn.isHidden_tile hk (fun _ => true) (fun j => decide (j ≠ gi)) fun e => ?_
      simp only [List.mem_append]

/-! ## What showing brings to the screen -/

theorem Exclusive.not_hidden (he : n.Exclusive s) (hh : n.shown? = some h) :
    s.isHidden h = false := by
  obtain ⟨k, hk, honly⟩ := he.only
  obtain rfl : k = h := Option.some.inj (hk.symm.trans hh)
  have hmem : k ∈ n.targets.filter fun k => !s.isHidden k := honly ▸ List.mem_singleton_self k
  simpa using (List.mem_filter.mp hmem).2

theorem shown?_showPage {i : Nat} (hp : n.pages[i]? = some p) :
    (n.showPage s i).1.shown? = some p.widget := by
  show n.pages[i]?.map (·.widget) = _
  rw [hp, Option.map_some]

theorem group_showTile (hg : n.groups[gi]? = some g) (s : Screen) (pi : Nat) :
    (n.showTile s gi pi).1.groups[gi]? = some { g with current := pi } := by
  show (n.groups.modify gi ({ · with current := pi }))[gi]? = _
  simp [hg]

theorem shown?_showTile (hg : n.groups[gi]? = some g) :
    (n.showTile s gi pi).1.shown? = some g.view := by
  show (n.showTile s gi pi).1.groups[gi]?.map (·.view) = _
  rw [group_showTile hg]
  rfl

end Navigation

namespace Session

variable {s t u : Session} {x : Choice} {g : PageGroup} {p : Page} {h : Handle} {id : String}

/-! ## What is registered -/

/-- The groups and pages of a session are its first controls, and its tiles are not hidden. -/
structure Registered (s : Session) : Prop where
  controls : ∃ new, s.controls = s.nav.choices.map Choice.control ++ new ∧
    ∀ c ∈ new, c.isPage = false
  named : ∀ g ∈ s.nav.groups, g.id ≠ ""
  visible : ∀ g ∈ s.nav.groups, ∀ p ∈ g.pages, s.screen.isHidden p.widget = false

theorem prepare_registered (hs : s.WellFormed) (hn : s.nav = {}) (hc : s.controls = [])
    (markup : String) : (s.prepare markup).Registered := by
  obtain ⟨hlaid, -⟩ := layOut_laidOut hs hn hc markup
  obtain ⟨⟨head, store, sheet, hl⟩, hhosts⟩ := layOut_hosts hs markup
  have hb := contents_builds hl.wellFormed fun c hc => (hhosts c hc).holds
  have hstack := ((hb.wellFormed hl.wellFormed).screen.extends_stack
    (buildContents (s.layOut markup).2 (s.layOut markup).1).controls).1
  have hnav := (layOut_prepare hs markup).1
  obtain ⟨new, hnew, -, hbuilt⟩ := hb.controls
  refine ⟨⟨new, ?_, fun c hc => decide_eq_false (hbuilt c hc).kind⟩, hnav ▸ hlaid.named,
    fun g hg p hp => ?_⟩
  · rw [hnav, Navigation.choices_control, ← hlaid.controls]
    exact hnew
  · rw [hnav] at hg
    have hlive := Screen.isLive_of_kind? (hlaid.wellFormed.nav.tile g hg p hp)
    have hkept := (hb.screen.trans hstack).preserves.isHidden hlive
    exact Eq.trans hkept (hlaid.visible g hg p hp)

theorem Registered.showPage (hr : s.Registered) (hs : s.WellFormed) {path : String}
    (he : s.showPage path = (.ok (), t)) : t.Registered := by
  obtain ⟨m, v, hd, rfl⟩ := showPage_eq he
  have hstill := Navigation.display_still hd
  obtain ⟨new, hnew, hpage⟩ := hr.controls
  refine ⟨⟨new, ?_, hpage⟩, fun g hg => ?_, fun g hg p hp => ?_⟩
  · show s.controls = m.choices.map Choice.control ++ new
    rw [Navigation.choices_congr hstill]
    exact hnew
  · obtain ⟨k, hk, hid, -⟩ := Navigation.still_group hstill hg
    exact hid ▸ hr.named k hk
  · obtain ⟨k, hk, -, hpages⟩ := Navigation.still_group hstill hg
    rw [← hpages] at hp
    exact (Navigation.display_isHidden_tile hs.nav hd (hs.nav.tile k hk p hp)).trans
      (hr.visible k hk p hp)

theorem render_registered (hs : s.WellFormed) (hn : s.nav = {}) (hc : s.controls = [])
    (markup : String) : (s.render markup).Registered := by
  have hprepared := prepare_registered hs hn hc markup
  rw [render_eq]
  rcases showFirst_cases (s.prepare markup) with he | ⟨path, he⟩
  · rw [he]
    exact hprepared
  · exact hprepared.showPage (hs.prepare markup) he

theorem Registered.control? (hr : s.Registered) (hx : s.nav.choice? id = some x) :
    s.control? id = some x.control := by
  obtain ⟨new, hnew, -⟩ := hr.controls
  have hfind : List.find? ((fun c => decide (c.id = id)) ∘ Choice.control) s.nav.choices =
      some x := hx
  rw [Session.control?, Controls.find?, hnew, List.find?_append, List.find?_map, hfind]
  rfl

/-- An id is that of a page exactly if something was registered by it. -/
theorem Registered.hasPage_iff (hr : s.Registered) :
    s.hasPage id = true ↔ ∃ x, s.nav.choice? id = some x := by
  refine ⟨fun hid => ?_, fun ⟨x, hx⟩ => by rw [hasPage, hr.control? hx]; rfl⟩
  rw [← Option.isSome_iff_exists, Option.isSome_iff_ne_none]
  intro hnone
  obtain ⟨new, hnew, hpage⟩ := hr.controls
  have hfind : List.find? ((fun c => decide (c.id = id)) ∘ Choice.control) s.nav.choices = none :=
    hnone
  have hcontrol : s.control? id = List.find? (fun c => decide (c.id = id)) new := by
    rw [Session.control?, Controls.find?, hnew, List.find?_append, List.find?_map, hfind]
    rfl
  rw [hasPage, hcontrol] at hid
  cases hc : List.find? (fun c => decide (c.id = id)) new with
  | none =>
    rw [hc] at hid
    cases hid
  | some c =>
    rw [hc, Option.map_some, hpage c (List.mem_of_find?_eq_some hc)] at hid
    cases hid

/-! ## Showing by an id -/

variable {i gi pi : Nat} {path : String} {goal : Navigation.Goal}

theorem showPage_goal (hg : s.nav.goal path = .ok goal) :
    s.nav.display s.screen path = .ok (s.nav.showGoal s.screen goal) ∧
      s.showPage path = (.ok (), { s with
        nav := (s.nav.showGoal s.screen goal).1
        screen := (s.nav.showGoal s.screen goal).2 }) := by
  have hd : s.nav.display s.screen path = .ok (s.nav.showGoal s.screen goal) := by
    rw [Navigation.display, hg]
    rfl
  exact ⟨hd, by rw [Session.showPage, hd]; rfl⟩

theorem showPage_error {e : Failure} (hg : s.nav.goal path = .error e) :
    s.showPage path = (.error e, s) := by
  rw [Session.showPage, Navigation.display, hg]
  rfl

/-- A page or a group is seen if it is not hidden. -/
theorem Paged.isVisible (hp : s.Paged) (hs : s.WellFormed)
    (htop : s.screen.isHidden Handle.screen = false) (hh : h ∈ s.nav.targets)
    (hv : s.screen.isHidden h = false) : s.screen.isVisible h = true :=
  have hsound := hs.screen.toSound
  hsound.isVisible_inside (hp.targets h hh) hv (hsound.isVisible_screen htop)

theorem Paged.shows_page (hp : s.Paged) (hs : s.WellFormed)
    (htop : ∀ path, (s.showPage path).2.screen.isHidden Handle.screen = false)
    (hpage : s.nav.pages[i]? = some p) (hg : s.nav.goal path = .ok (.page i)) :
    ∃ t, s.showPage path = (.ok (), t) ∧ t.screen.isVisible p.widget = true := by
  obtain ⟨hd, he⟩ := showPage_goal hg
  have ht := hs.perform (.showPage path)
  have htopped := htop path
  rw [Operation.perform, he] at ht
  rw [he] at htopped
  refine ⟨_, he, (hp.showPage hs he).isVisible ht htopped ?_
    ((Navigation.display_spec hs.screen hs.nav hd).exclusive.not_hidden
      (Navigation.shown?_showPage (s := s.screen) hpage))⟩
  exact List.mem_append_left _ (List.mem_map_of_mem (List.mem_of_getElem? hpage))

theorem Paged.shows_tile (hp : s.Paged) (hr : s.Registered) (hs : s.WellFormed)
    (htop : ∀ path, (s.showPage path).2.screen.isHidden Handle.screen = false)
    (hgroup : s.nav.groups[gi]? = some g) (hpage : g.pages[pi]? = some p)
    (hg : s.nav.goal path = .ok (.tile gi pi)) :
    ∃ t, s.showPage path = (.ok (), t) ∧ t.screen.isVisible g.view = true ∧
      t.screen.isVisible p.widget = true ∧ t.screen.activeTile? g.view = some p.widget := by
  obtain ⟨hd, he⟩ := showPage_goal hg
  have ht := hs.perform (.showPage path)
  have htopped := htop path
  rw [Operation.perform, he] at ht
  rw [he] at htopped
  have hpaged := hp.showPage hs he
  have hmem := List.mem_of_getElem? (Navigation.group_showTile hgroup s.screen pi)
  have hview := hpaged.isVisible ht htopped
    (List.mem_append_right _ (List.mem_map_of_mem (f := (·.view)) hmem))
    ((Navigation.display_spec hs.screen hs.nav hd).exclusive.not_hidden
      (Navigation.shown?_showTile (s := s.screen) hgroup))
  have hstep := hpaged.inStep _ hmem
  have hinside : p.widget ∈ (s.nav.showTile s.screen gi pi).2.children g.view := by
    rw [show (s.nav.showTile s.screen gi pi).2.children g.view = g.pages.map (·.widget) from
      hstep.tiles]
    exact List.mem_map_of_mem (List.mem_of_getElem? hpage)
  have htile := ht.screen.toSound.isVisible_inside
    (ht.screen.toSound.mem_children_iff.mp hinside)
    ((hr.showPage hs he).visible _ hmem p (List.mem_of_getElem? hpage)) hview
  obtain ⟨q, hq, hactive⟩ := hstep.active (List.ne_nil_of_mem (List.mem_of_getElem? hpage))
  obtain rfl : p = q := Option.some.inj (hpage.symm.trans hq)
  exact ⟨_, he, hview, htile, hactive⟩

/-- What is registered by an id that is no path to something else is shown by it, if there is a page
to be shown. -/
theorem Paged.shows (hp : s.Paged) (hr : s.Registered) (hs : s.WellFormed)
    (htop : ∀ path, (s.showPage path).2.screen.isHidden Handle.screen = false)
    (hx : s.nav.Finds x) (hplain : x.Plain s.nav) (hopens : x.Opens) :
    ∃ t, s.showPage x.id = (.ok (), t) ∧ t.screen.isVisible x.widget = true ∧
      ∀ g p, x = .tile g p → t.screen.activeTile? g.view = some p.widget := by
  cases x with
  | page p =>
    obtain ⟨i, hpage, hg⟩ := Navigation.goal_page hplain hx
    obtain ⟨t, he, hv⟩ := hp.shows_page hs htop hpage hg
    exact ⟨t, he, hv, fun _ _ hc => nomatch hc⟩
  | group g =>
    have hmem : g ∈ s.nav.groups := List.mem_of_find?_eq_some hx
    obtain ⟨q, hq, hid⟩ := hopens
    obtain ⟨p, hlanding⟩ := Option.isSome_iff_exists.mp
      (List.find?_isSome.mpr ⟨q, hq, decide_eq_true hid⟩ :
        (g.pages.find? (·.id = g.landing)).isSome = true)
    obtain ⟨gi, pi, hgroup, hpage, hg⟩ := Navigation.tileGoal_ok hx hlanding
    rw [← Navigation.goal_group hplain (hr.named g hmem) hx] at hg
    obtain ⟨t, he, hv, -⟩ := hp.shows_tile hr hs htop hgroup hpage hg
    exact ⟨t, he, hv, fun _ _ hc => nomatch hc⟩
  | tile g p =>
    obtain ⟨hmem, hfind⟩ := hx
    obtain ⟨gi, pi, hgroup, hpage, hg⟩ := Navigation.tileGoal_ok hplain.2 hfind
    rw [← Navigation.follow_path hplain.1 (hr.named g hmem) 2] at hg
    obtain ⟨t, he, -, hv, hactive⟩ := hp.shows_tile hr hs htop hgroup hpage hg
    refine ⟨t, he, hv, fun g' p' hc => ?_⟩
    cases hc
    exact hactive

/-- A group without the page that it leads to is not shown, and nothing else is. -/
theorem Registered.shows_nothing (hr : s.Registered) (hx : s.nav.Finds x)
    (hplain : x.Plain s.nav) (hopens : ¬ x.Opens) :
    ∃ g, x = .group g ∧
      s.showPage x.id = (.error (.unknownGroupPage g.id g.landing), s) := by
  cases x with
  | page p => exact absurd trivial hopens
  | tile g p => exact absurd trivial hopens
  | group g =>
    have hmem : g ∈ s.nav.groups := List.mem_of_find?_eq_some hx
    refine ⟨g, rfl, showPage_error ?_⟩
    rw [show (Choice.group g).id = g.id from rfl, Navigation.goal_group hplain (hr.named g hmem) hx]
    exact Navigation.tileGoal_error hx fun p hp hid => hopens ⟨p, hp, hid⟩

/-- In a document that was rendered on a cleared screen, the id of a page, a group or a tile is that
of the first that was registered by it. Unless the id is a path to something else, to show it brings
that to the screen with all that is around it, and makes a tile the active one of its group. A group
that has not got the page it leads to is not shown, and nothing changes. -/
theorem shown_by_id (initial : Config) (history : List Operation) (markup id : String)
    (hid : (((Session.new initial).after history).clear.render markup).hasPage id = true) :
    let t := ((Session.new initial).after history).clear.render markup
    ∃ x, t.nav.choice? id = some x ∧ x.id = id ∧ t.get? id = some x.widget ∧
      (x.Plain t.nav →
        (x.Opens → ∃ u, t.showPage id = (.ok (), u) ∧ u.screen.isVisible x.widget = true ∧
          ∀ g p, x = .tile g p → u.screen.activeTile? g.view = some p.widget) ∧
        (¬ x.Opens → ∃ g, x = .group g ∧
          t.showPage id = (.error (.unknownGroupPage g.id g.landing), t))) := by
  intro t
  have hs : ((Session.new initial).after history).clear.WellFormed :=
    ((wellFormed_new initial).after history).clear
  have ht : t.WellFormed := hs.render markup
  have hp : t.Paged := render_paged hs (fun _ _ => rfl) rfl rfl markup
  have hr : t.Registered := render_registered hs rfl rfl markup
  have htop (path : String) : (t.showPage path).2.screen.isHidden Handle.screen = false := by
    have hrun := top_not_hidden initial (history ++ [.clear, .render markup, .showPage path])
    rwa [Session.after, List.foldl_append] at hrun
  obtain ⟨x, hx⟩ := hr.hasPage_iff.mp hid
  obtain rfl : x.id = id := Navigation.id_of_choice? hx
  have hfinds := Navigation.choice?_finds hx
  refine ⟨x, hx, rfl, ?_, fun hplain => ⟨fun hopens => ?_, fun hopens => ?_⟩⟩
  · rw [Session.get?, hr.control? hx]
    rfl
  · exact hp.shows hr ht htop hfinds hplain hopens
  · exact hr.shows_nothing hfinds hplain hopens

/-- The second tile of a group. -/
theorem shown_by_id_second_tile :
    let t := ((Session.new {}).after []).clear.render
      "<group id='g'><page id='a'/><page id='b'/></group><page id='p'/>"
    t.hasPage "g/b" = true ∧
      ∃ u h, t.showPage "g/b" = (.ok (), u) ∧ t.get? "g/b" = some h ∧
        u.screen.isVisible h = true := by
  intro t
  have hid : t.hasPage "g/b" = true := by decide +kernel
  obtain ⟨x, hx, -, hget, hshow⟩ := shown_by_id {} []
    "<group id='g'><page id='a'/><page id='b'/></group><page id='p'/>" "g/b" hid
  have hfound : ((t.nav.choice? "g/b").all fun x => decide (x.Plain t.nav ∧ x.Opens)) = true := by
    decide +kernel
  rw [show t.nav.choice? "g/b" = some x from hx, Option.all_some] at hfound
  obtain ⟨hplain, hopens⟩ := of_decide_eq_true hfound
  obtain ⟨u, hu, hv, -⟩ := (hshow hplain).1 hopens
  exact ⟨hid, u, x.widget, hu, hget, hv⟩

/-- A group without pages, a group that leads to a page it does not have, a page with a slash in its
id, and a tile of the second of two groups with one id are registered and cannot be shown. -/
theorem not_every_id_is_shown :
    let attempt (markup id : String) :=
      let t := (Session.new {}).clear.render markup
      (t.hasPage id, (t.showPage id).1)
    attempt "<group id='g'/>" "g" = (true, .error (.unknownGroupPage "g" "")) ∧
    attempt "<group id='g' default='z'><page id='a'/></group>" "g" =
      (true, .error (.unknownGroupPage "g" "z")) ∧
    attempt "<page id='a/b'/>" "a/b" = (true, .error (.unknownPage "a")) ∧
    attempt "<group id='g'/><group id='g'><page id='a'/></group>" "g/a" =
      (true, .error (.unknownGroupPage "g" "a")) := by
  decide +kernel

end Session
end ScreenMarkup
