import ScreenMarkup.Navigation.Construction
import ScreenMarkup.Proofs.Session.WellFormed

/-!
# Growing navigation

Pages, groups and tiles are new widgets, and what was on the screen before
them shows what it showed.
-/

set_option autoImplicit false

namespace ScreenMarkup

namespace Screen

variable {s t u : Screen} {h : Handle} {H : Handle → Prop} {kind : WidgetKind}

/-- The screen `t` is `s` with a new widget, and nothing else shows anything new. -/
structure Adds (s : Screen) (h : Handle) (kind : WidgetKind) (t : Screen) : Prop where
  preserves : s.Preserves t
  fresh : s.widget? h = none
  made : ∃ w, t.widget? h = some w ∧ w.content = (Widget.new kind).content

theorem WellFormed.adds_create (hs : s.WellFormed) {parent : Handle}
    (hp : ∀ k, s.kind? parent = some k → k.isContainer = true)
    (hc : s.create kind parent = (h, t)) : Adds s h kind t := by
  have hext := hs.extends_create kind hp
  have hfresh := hs.create_fresh kind parent
  have hmade := hs.widget?_create kind parent (s.create kind parent).1
  rw [if_pos rfl] at hmade
  rw [hc] at hext hfresh hmade
  exact ⟨hext.preserves, hfresh, Widget.new kind, hmade, rfl⟩

theorem Adds.preserve (ha : Adds s h kind t) (hp : t.Preserves u) : Adds s h kind u := by
  obtain ⟨w, hw, hc⟩ := ha.made
  obtain ⟨v, hv, hvw⟩ := hp.content h w hw
  exact ⟨ha.preserves.trans hp, ha.fresh, v, hv, hvw.trans hc⟩

theorem Adds.restyle (ha : Adds s h kind t) (ht : Restyles H t u) : Adds s h kind u :=
  ha.preserve (ht.preserves ha.preserves.wellFormed)

theorem Adds.kind? (ha : Adds s h kind t) : t.kind? h = some kind := by
  obtain ⟨w, hw, hc⟩ := ha.made
  rw [Screen.kind?, hw, Option.map_some]
  exact congrArg (some ·.kind) hc

theorem Adds.isHidden (ha : Adds s h kind t) : t.isHidden h = false := by
  obtain ⟨w, hw, hc⟩ := ha.made
  rw [Screen.isHidden, hw, Option.map_some, Option.getD_some]
  exact congrArg WidgetContent.hidden hc

/-- What is live already is another widget. -/
theorem Adds.ne (ha : Adds s h kind t) {k : Handle} (hk : s.isLive k = true) : k ≠ h := by
  rintro rfl
  rw [Screen.isLive, ha.fresh] at hk
  cases hk

theorem WellFormed.top_isContainer (hs : s.WellFormed) :
    ∀ k, s.kind? Handle.screen = some k → k.isContainer = true :=
  isContainer_of_kind? hs.top rfl

theorem WellFormed.preserves_raise (hs : s.WellFormed) (h : Handle) : s.Preserves (s.raise h) :=
  ⟨hs.raise h, fun k w hw => ⟨w, by rw [widget?_raise, hw], rfl⟩⟩

theorem WellFormed.preserves_moveTo (hs : s.WellFormed) (h : Handle) (i : Nat) :
    s.Preserves (s.moveTo h i) :=
  ⟨hs.moveTo h i, fun k w hw => ⟨w, by rw [widget?_moveTo, hw], rfl⟩⟩

end Screen

namespace Navigation

variable {n m : Navigation} {s t : Screen} {h : Handle} {gi : Nat}

/-! ## One group of many -/

/-- All pages and group views: what can be shown. -/
def targets (n : Navigation) : List Handle := n.pages.map (·.widget) ++ n.groups.map (·.view)

def allDots (n : Navigation) : List Handle := n.groups.filterMap (·.dots)

theorem modifyGroup_cases (n : Navigation) (gi : Nat) (f : PageGroup → PageGroup) :
    n.modifyGroup gi f = n ∨ ∃ gs₁ g gs₂, n.groups = gs₁ ++ g :: gs₂ ∧ gs₁.length = gi ∧
      n.modifyGroup gi f = { n with groups := gs₁ ++ f g :: gs₂ } := by
  by_cases hi : gi < n.groups.length
  · obtain ⟨gs₁, g, gs₂, he, hl, hm⟩ := List.exists_of_modify f hi
    exact .inr ⟨gs₁, g, gs₂, he, hl, by rw [modifyGroup, hm]⟩
  · left
    rw [modifyGroup, List.modify_eq_self (Nat.le_of_not_lt hi)]

theorem modifyGroup_views (n : Navigation) (gi : Nat) (f : PageGroup → PageGroup)
    (hf : ∀ g, (f g).view = g.view) :
    (n.modifyGroup gi f).groups.map (·.view) = n.groups.map (·.view) := by
  rcases n.modifyGroup_cases gi f with he | ⟨gs₁, g, gs₂, hg, -, he⟩
  · rw [he]
  · rw [he, hg, List.map_append, List.map_append, List.map_cons, List.map_cons, hf]

theorem mem_modifyGroup {f : PageGroup → PageGroup} {k : PageGroup}
    (hk : k ∈ (n.modifyGroup gi f).groups) : k ∈ n.groups ∨ ∃ g ∈ n.groups, k = f g := by
  rcases n.modifyGroup_cases gi f with he | ⟨gs₁, g, gs₂, hg, -, he⟩
  · rw [he] at hk
    exact .inl hk
  · rw [he] at hk
    rw [hg]
    rcases List.mem_append.mp hk with hk | hk
    · exact .inl (List.mem_append_left _ hk)
    · rcases List.mem_cons.mp hk with rfl | hk
      · exact .inr ⟨g, by simp, rfl⟩
      · exact .inl (List.mem_append_right _ (List.mem_cons_of_mem _ hk))

theorem mem_modifyGroup_targets {f : PageGroup → PageGroup}
    (hh : h ∈ (n.modifyGroup gi f).targets) (hf : ∀ g, (f g).view = g.view) : h ∈ n.targets := by
  rw [targets, modifyGroup_views n gi f hf] at hh
  exact hh

theorem mem_modifyGroup_dots {f : PageGroup → PageGroup} {d : List Handle}
    (hh : h ∈ (n.modifyGroup gi f).allDots)
    (hf : ∀ g ∈ n.groups, ∀ k, (f g).dots = some k → g.dots = some k ∨ k ∈ d) :
    h ∈ n.allDots ∨ h ∈ d := by
  obtain ⟨k, hk, hd⟩ := List.mem_filterMap.mp hh
  rcases mem_modifyGroup hk with hk | ⟨g, hg, rfl⟩
  · exact .inl (List.mem_filterMap.mpr ⟨k, hk, hd⟩)
  · rcases hf g hg h hd with hd | hd
    · exact .inl (List.mem_filterMap.mpr ⟨g, hg, hd⟩)
    · exact .inr hd

/-- One row of dots more, or none. -/
theorem nodup_modifyGroup_dots {f : PageGroup → PageGroup} (hn : n.allDots.Nodup)
    (hf : ∀ g ∈ n.groups, (f g).dots = g.dots ∨
      ∃ row, (f g).dots = some row ∧ row ∉ n.allDots) :
    (n.modifyGroup gi f).allDots.Nodup := by
  rcases n.modifyGroup_cases gi f with he | ⟨gs₁, g, gs₂, hg, -, he⟩
  · rw [he]
    exact hn
  · rw [he]
    show ((gs₁ ++ f g :: gs₂).filterMap (·.dots)).Nodup
    rcases hf g (by simp [hg]) with hsame | ⟨row, hrow, hnew⟩
    · rw [allDots, hg] at hn
      rwa [List.filterMap_append, List.filterMap_cons, hsame, ← List.filterMap_cons,
        ← List.filterMap_append]
    · have hperm : ((gs₁ ++ f g :: gs₂).filterMap (·.dots)).Perm
          (row :: (gs₁ ++ gs₂).filterMap (·.dots)) := by
        rw [List.filterMap_append, List.filterMap_cons, hrow, List.filterMap_append]
        exact List.perm_middle
      have hsub : ((gs₁ ++ gs₂).filterMap (·.dots)).Sublist n.allDots := by
        rw [allDots, hg]
        exact ((List.Sublist.refl gs₁).append (List.sublist_cons_self g gs₂)).filterMap _
      rw [hperm.nodup_iff, List.nodup_cons]
      constructor
      · intro hin
        exact hnew (hsub.subset hin)
      · exact hsub.nodup hn

/-- A group may get new tiles, another current page, and new dots. -/
theorem WellFormed.modifyGroup (hn : n.WellFormed s) {f : PageGroup → PageGroup}
    (hview : ∀ g, (f g).view = g.view)
    (htile : ∀ g ∈ n.groups, ∀ p ∈ (f g).pages, s.kind? p.widget = some .tile)
    (hdots : ∀ g ∈ n.groups, (f g).dots = g.dots ∨ ∃ row, (f g).dots = some row ∧
      s.kind? row = some .indicator ∧ row ∉ n.groups.filterMap (·.dots)) :
    (n.modifyGroup gi f).WellFormed s where
  page := hn.page
  view k hk := by
    rcases mem_modifyGroup hk with hk | ⟨g, hg, rfl⟩
    · exact hn.view k hk
    · rw [hview]
      exact hn.view g hg
  tile k hk p hp := by
    rcases mem_modifyGroup hk with hk | ⟨g, hg, rfl⟩
    · exact hn.tile k hk p hp
    · exact htile g hg p hp
  dots k hk d hd := by
    rcases mem_modifyGroup hk with hk | ⟨g, hg, rfl⟩
    · exact hn.dots k hk d hd
    · rcases hdots g hg with hsame | ⟨row, hrow, hkind, -⟩
      · exact hn.dots g hg d (hsame ▸ hd)
      · rw [hrow] at hd
        cases hd
        exact hkind
  keyboard := hn.keyboard
  pagesNodup := hn.pagesNodup
  viewsNodup := by
    rw [modifyGroup_views n gi f hview]
    exact hn.viewsNodup
  dotsNodup := by
    apply nodup_modifyGroup_dots hn.dotsNodup
    intro g hg
    apply (hdots g hg).imp id
    rintro ⟨row, hrow, -, hnew⟩
    exact ⟨row, hrow, hnew⟩
  currentPage := hn.currentPage
  currentGroup i hi := by
    show i < (n.groups.modify gi f).length
    rw [List.length_modify]
    exact hn.currentGroup i hi

/-- A page that is new to the screen may come last. -/
theorem WellFormed.pushPage (hn : n.WellFormed s) {p : Page} (hk : s.kind? p.widget = some .page)
    (hnew : ∀ q ∈ n.pages, q.widget ≠ p.widget) :
    ({ n with pages := n.pages ++ [p] } : Navigation).WellFormed s :=
  { hn with
    page := by
      intro q hq
      rcases List.mem_append.mp hq with hq | hq
      · exact hn.page q hq
      · rw [List.mem_singleton.mp hq]
        exact hk
    pagesNodup := by
      rw [List.map_append, List.map_singleton]
      apply List.nodup_append.mpr
      refine ⟨hn.pagesNodup, List.nodup_singleton _, fun a ha b hb => ?_⟩
      rw [List.mem_singleton.mp hb]
      obtain ⟨q, hq, rfl⟩ := List.mem_map.mp ha
      exact hnew q hq
    currentPage := by
      intro i hi
      show i < (n.pages ++ [p]).length
      rw [List.length_append]
      exact Nat.lt_add_right _ (hn.currentPage i hi) }

/-- A group that is new to the screen and still empty may come last. -/
theorem WellFormed.pushGroup (hn : n.WellFormed s) {g : PageGroup}
    (hk : s.kind? g.view = some .tileView) (hnew : ∀ k ∈ n.groups, k.view ≠ g.view)
    (hpages : g.pages = []) (hdots : g.dots = none) :
    ({ n with groups := n.groups ++ [g] } : Navigation).WellFormed s :=
  { hn with
    view := by
      intro k hkm
      rcases List.mem_append.mp hkm with hkm | hkm
      · exact hn.view k hkm
      · rw [List.mem_singleton.mp hkm]
        exact hk
    tile := by
      intro k hkm p hp
      rcases List.mem_append.mp hkm with hkm | hkm
      · exact hn.tile k hkm p hp
      · rw [List.mem_singleton.mp hkm, hpages] at hp
        cases hp
    dots := by
      intro k hkm d hd
      rcases List.mem_append.mp hkm with hkm | hkm
      · exact hn.dots k hkm d hd
      · rw [List.mem_singleton.mp hkm, hdots] at hd
        cases hd
    viewsNodup := by
      rw [List.map_append, List.map_singleton]
      apply List.nodup_append.mpr
      refine ⟨hn.viewsNodup, List.nodup_singleton _, fun a ha b hb => ?_⟩
      rw [List.mem_singleton.mp hb]
      obtain ⟨k, hkm, rfl⟩ := List.mem_map.mp ha
      exact hnew k hkm
    dotsNodup := by
      rw [List.filterMap_append, List.filterMap_cons, hdots, List.filterMap_nil, List.append_nil]
      exact hn.dotsNodup
    currentGroup := by
      intro i hi
      show i < (n.groups ++ [g]).length
      rw [List.length_append]
      exact Nat.lt_add_right _ (hn.currentGroup i hi) }

/-! ## New pages, groups, tiles and dots -/

theorem WellFormed.target_live (hn : n.WellFormed s) (hh : h ∈ n.targets) : s.isLive h = true := by
  rcases List.mem_append.mp hh with hh | hh
  · obtain ⟨p, hp, rfl⟩ := List.mem_map.mp hh
    exact Screen.isLive_of_kind? (hn.page p hp)
  · obtain ⟨g, hg, rfl⟩ := List.mem_map.mp hh
    exact Screen.isLive_of_kind? (hn.view g hg)

theorem WellFormed.dots_kind (hn : n.WellFormed s) (hh : h ∈ n.allDots) :
    s.kind? h = some .indicator := by
  obtain ⟨g, hg, hd⟩ := List.mem_filterMap.mp hh
  exact hn.dots g hg h hd

theorem addPage_spec (hs : s.WellFormed) (hn : n.WellFormed s) {id : String} {size : Size}
    (he : n.addPage s id size = (h, m, t)) :
    s.Adds h .page t ∧ m = { n with pages := n.pages ++ [⟨id, h⟩] } ∧ m.WellFormed t := by
  unfold addPage at he
  split at he
  next k s₁ hc =>
  extract_lets s₂ s₃ at he
  simp only [Prod.mk.injEq] at he
  obtain ⟨rfl, rfl, ht⟩ := he
  rw [← ht]
  have hadd : s.Adds k .page s₁ := hs.adds_create hs.top_isContainer hc
  have hsize : Screen.Restyles (· = k) s₁ s₂ :=
    (Screen.setSize_restyles _ k _ _).trans (Screen.setPos_restyles _ k _ _)
  have hadd : s.Adds k .page s₃ :=
    (hadd.restyle hsize).restyle (Screen.applyStyles_restyles _ k _)
  have hold := hn.retain hadd.preserves.retains
  refine ⟨hadd, rfl, hold.pushPage hadd.kind? fun p hp => ?_⟩
  exact hadd.ne (Screen.isLive_of_kind? (hn.page p hp))

theorem addGroup_spec (hs : s.WellFormed) (hn : n.WellFormed s) {id defaultPage : String}
    {orientation : Orientation} {indicator : Indicator} {size : Size}
    (he : n.addGroup s id defaultPage orientation indicator size = (gi, m, t)) :
    ∃ g, s.Adds g.view .tileView t ∧ g.dots = none ∧ gi = n.groups.length ∧
      m = { n with groups := n.groups ++ [g] } ∧ m.WellFormed t := by
  unfold addGroup at he
  split at he
  next h s₁ hc =>
  extract_lets s₂ s₃ s₄ s₅ g at he
  simp only [Prod.mk.injEq] at he
  obtain ⟨rfl, rfl, ht⟩ := he
  rw [← ht]
  have hadd : s.Adds h .tileView s₁ := hs.adds_create hs.top_isContainer hc
  have hsize : Screen.Restyles (· = h) s₁ s₂ :=
    (Screen.setSize_restyles _ h _ _).trans (Screen.setPos_restyles _ h _ _)
  have hstyle : Screen.Restyles (· = h) s₂ s₃ := Screen.applyStyle_restyles _ h _
  have hconf : Screen.Restyles (· = h) s₃ s₅ :=
    (Screen.configure_restyles _ h _).trans (Screen.configure_restyles _ h _)
  have hadd := hadd.restyle ((hsize.trans hstyle).trans hconf)
  have hold := hn.retain hadd.preserves.retains
  refine ⟨g, hadd, rfl, rfl, rfl, hold.pushGroup hadd.kind? (fun k hk => ?_) rfl rfl⟩
  exact hadd.ne (Screen.isLive_of_kind? (hn.view k hk))

theorem addTile?_spec (hs : s.WellFormed) (hn : n.WellFormed s) {page : String} {size : Size}
    (he : n.addTile? s gi page size = some (h, m, t)) :
    s.Adds h .tile t ∧
      m = n.modifyGroup gi (fun g => { g with pages := g.pages ++ [⟨page, h⟩] }) ∧
      m.WellFormed t := by
  unfold addTile? at he
  obtain ⟨g, hg, he⟩ := Option.map_eq_some_iff.mp he
  extract_lets place at he
  split at he
  next k s₁ hc =>
  extract_lets s₂ s₃ s₄ s₅ at he
  simp only [Prod.mk.injEq] at he
  obtain ⟨rfl, rfl, ht⟩ := he
  rw [← ht]
  have hgm : g ∈ n.groups := List.mem_of_getElem? hg
  have hadd : s.Adds k .tile s₁ :=
    hs.adds_create (Screen.isContainer_of_kind? (hn.view g hgm) rfl) hc
  have hsize : Screen.Restyles (· = k) s₁ s₂ := Screen.setSize_restyles _ k _ _
  have hplace : Screen.Restyles (· = k) s₂ s₃ := by
    unfold s₃
    split
    · exact Screen.setPos_restyles _ k _ _
    · exact Screen.setPos_restyles _ k _ _
  have hstyle : Screen.Restyles (· = k) s₃ s₄ := Screen.applyStyle_restyles _ k _
  have hactive : Screen.Restyles (· = g.view) s₄ s₅ := by
    unfold s₅
    split
    · exact Screen.setActiveTile_restyles _ _ _
    · exact Screen.Restyles.refl _
  have hadd := (hadd.restyle ((hsize.trans hplace).trans hstyle)).restyle hactive
  have hold := hn.retain hadd.preserves.retains
  refine ⟨hadd, rfl, hold.modifyGroup (fun _ => rfl) (fun k hk p hp => ?_) fun _ _ => .inl rfl⟩
  rcases List.mem_append.mp hp with hp | hp
  · exact hold.tile k hk p hp
  · rw [List.mem_singleton.mp hp]
    exact hadd.kind?

theorem addDot_preserves (hs : s.WellFormed) (horizontal : Bool) {row : Handle}
    (hrow : s.kind? row = some .indicator) (i : Nat) :
    s.Preserves (addDot horizontal row s i) := by
  unfold addDot
  split
  next h s₁ hc =>
  extract_lets s₂ along across s₃
  have hadd : s.Adds h .dot s₁ := hs.adds_create (Screen.isContainer_of_kind? hrow rfl) hc
  have hsize : Screen.Restyles (· = h) s₁ s₂ := Screen.setSize_restyles _ h _ _
  have hplace : Screen.Restyles (· = h) s₂ s₃ := by
    unfold s₃
    split
    · exact Screen.setPos_restyles _ h _ _
    · exact Screen.setPos_restyles _ h _ _
  exact ((hadd.restyle (hsize.trans hplace)).restyle
    (Screen.applyStyles_restyles _ h _)).preserves

theorem addDots_preserves (hs : s.WellFormed) (horizontal : Bool) {row : Handle}
    (hrow : s.kind? row = some .indicator) (is : List Nat) :
    s.Preserves (is.foldl (addDot horizontal row) s) := by
  induction is generalizing s with
  | nil => exact Screen.Preserves.refl hs
  | cons i is ih =>
    have hp := addDot_preserves hs horizontal hrow i
    exact hp.trans (ih hp.wellFormed (hp.retains.kind _ _ hrow))

theorem finishGroup_spec (hs : s.WellFormed) (hn : n.WellFormed s)
    (he : n.finishGroup s gi = (m, t)) :
    (m = n ∧ t = s) ∨ ∃ row, s.Adds row .indicator t ∧
      m = n.modifyGroup gi ({ · with dots := some row }) ∧ m.WellFormed t := by
  unfold finishGroup at he
  split at he
  · cases he
    exact .inl ⟨rfl, rfl⟩
  · next g hg =>
    split at he
    · cases he
      exact .inl ⟨rfl, rfl⟩
    · extract_lets count horizontal at he
      split at he
      next row s₁ hc =>
      extract_lets s₂ s₃ s₄ s₅ at he
      simp only [Prod.mk.injEq] at he
      obtain ⟨rfl, ht⟩ := he
      rw [← ht]
      have hadd : s.Adds row .indicator s₁ := hs.adds_create hs.top_isContainer hc
      have hstyle : Screen.Restyles (· = row) s₁ s₂ := Screen.applyStyles_restyles _ row _
      have hplace : Screen.Restyles (· = row) s₂ s₃ := by
        unfold s₃
        split
        · exact (Screen.setSize_restyles _ row _ _).trans (Screen.align_restyles _ row _ _)
        · exact (Screen.setSize_restyles _ row _ _).trans (Screen.align_restyles _ row _ _)
      have hadd := hadd.restyle (hstyle.trans hplace)
      have hadd := hadd.preserve (hadd.preserves.wellFormed.preserves_raise row)
      have hadd : s.Adds row .indicator s₅ := hadd.preserve
        (addDots_preserves hadd.preserves.wellFormed _ hadd.kind? (List.range count))
      have hold := hn.retain hadd.preserves.retains
      refine .inr ⟨row, hadd, rfl, hold.modifyGroup (fun _ => rfl) (fun k hk => hold.tile k hk)
        fun k hk => .inr ⟨row, rfl, hadd.kind?, fun hin => ?_⟩⟩
      exact hadd.ne (Screen.isLive_of_kind? (hn.dots_kind hin)) rfl

end Navigation
end ScreenMarkup
