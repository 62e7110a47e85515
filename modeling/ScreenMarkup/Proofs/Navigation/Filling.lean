import ScreenMarkup.Proofs.Navigation.Anchored
import ScreenMarkup.Proofs.Navigation.Groups

/-!
# Filling groups

A group gets its view, then its tiles one by one, and then its dots. While it
is filled its first tile is the active one, and when it is complete the group
is in step. Whatever was on the screen before is left alone.
-/

set_option autoImplicit false

namespace ScreenMarkup

namespace Screen

variable {s t u : Screen} {h p : Handle} {kind : WidgetKind}

/-- What is made of a new widget: nothing is inside of it yet, and it is the latest in its place. -/
theorem Sound.new_widget (hs : s.Sound) (hp : s.isLive p = true)
    (hc : s.create kind p = (h, t)) :
    s.isLive h = false ∧ t.isLive h = true ∧ t.children h = [] ∧
      t.widget? h = some (Widget.new kind) ∧ h.generation ≠ 0 := by
  have hfresh := hs.create_fresh kind p
  have hlive := hs.live_create kind p
  have hempty := children_create_new hs kind hp
  have hmade := hs.widget?_create kind p (s.create kind p).1
  have hlater : (s.create kind p).1.generation ≠ 0 := by
    rw [create_fst]
    exact Nat.ne_of_gt (Nat.zero_lt_of_lt s.generationAt_upcoming)
  rw [if_pos rfl] at hmade
  rw [hc] at hfresh hlive hempty hmade hlater
  exact ⟨by rw [isLive, hfresh]; rfl, hlive, hempty, hmade, hlater⟩

theorem Sound.parent?_ne (hs : s.Sound) (hp : s.parent? h = some p) : h ≠ p := by
  obtain ⟨as, ha⟩ := parent?_eq_some.mp hp
  have hnodup := List.nodup_reverse.mp ((Branch.above?_sublist s.shape ha).nodup hs.nodup)
  rintro rfl
  exact (List.nodup_cons.mp hnodup).1 List.mem_cons_self

theorem Sound.parent?_new (hs : s.Sound) (hp : s.isLive p = true)
    (hc : s.create kind p = (h, t)) : t.parent? h = some p := by
  have hparent := hs.parent?_create kind hp
  rwa [hc] at hparent

theorem Sound.children_create_in (hs : s.Sound) (hp : s.isLive p = true)
    (hc : s.create kind p = (h, t)) : t.children p = s.children p ++ [h] := by
  have hself := hs.children_create_self kind p
  have hholder : s.holder p = p := if_pos hp
  rw [hholder, hc] at hself
  exact hself

/-- A new widget that gets its looks and is raised stands on the screen itself, and is empty. -/
theorem Sound.make_raised (hs : s.Sound) (hc : s.create kind Handle.screen = (h, t))
    (hl : Restyles (· = h) t u) :
    (u.raise h).Sound ∧ s.Leaves (· = Handle.screen) (u.raise h) ∧
      (u.raise h).isLive h = true ∧ (u.raise h).children h = [] := by
  obtain ⟨-, hlive, hempty, -⟩ := hs.new_widget hs.screen_live hc
  have hcreated := hs.create kind Handle.screen
  rw [hc] at hcreated
  have hu : u.Sound := hcreated.touch hl
  have hparent : u.parent? h = some Handle.screen :=
    (parent?_congr hl.shape h).trans (hs.parent?_new hs.screen_live hc)
  have hmade : s.Leaves (· = Handle.screen) u := hs.leaves_make hs.screen_live hc hl.leaves
  refine ⟨hu.raise h, hmade.trans (hu.leaves_raise hparent) fun _ _ hk => hk, ?_, ?_⟩
  · rw [isLive, widget?_raise]
    exact (hl.isLive h).trans hlive
  · rw [hu.children_raise, hl.children, hempty]
    rfl

end Screen

namespace PageGroup

variable {g : PageGroup} {s t : Screen}

/-- The group has tiles and no dots yet, and the first tile is active. -/
structure Filling (g : PageGroup) (s : Screen) : Prop where
  tiles : s.children g.view = g.pages.map (·.widget)
  first : s.activeTile? g.view = g.pages.head?.map (·.widget)
  current : g.current = 0
  dots : g.dots = none

theorem Filling.leave {H : Handle → Prop} (hg : g.Filling s) (hl : s.Leaves H t)
    (hlive : s.isLive g.view = true) (hn : ¬ H g.view) : g.Filling t where
  tiles := (hl.children _ hlive hn).trans hg.tiles
  first := (hl.activeTile? hlive hn).trans hg.first
  current := hg.current
  dots := hg.dots

theorem Filling.active (hg : g.Filling s) (hp : g.pages ≠ []) :
    ∃ p, g.pages[0]? = some p ∧ s.activeTile? g.view = some p.widget := by
  obtain ⟨p, ps, hps⟩ := List.exists_cons_of_ne_nil hp
  exact ⟨p, by rw [hps]; rfl, by rw [hg.first, hps]; rfl⟩

/-- A tile is put after the others, and becomes the active one if it is the first. -/
theorem Filling.add (hg : g.Filling s) {h : Handle} (page : String)
    (hc : t.children g.view = s.children g.view ++ [h])
    (ha : t.activeTile? g.view = if g.pages.isEmpty then some h else s.activeTile? g.view) :
    ({ g with pages := g.pages ++ [⟨page, h⟩] } : PageGroup).Filling t where
  tiles := by
    show t.children g.view = (g.pages ++ [(⟨page, h⟩ : Page)]).map (·.widget)
    rw [hc, hg.tiles, List.map_append, List.map_singleton]
  first := by
    show t.activeTile? g.view = (g.pages ++ [(⟨page, h⟩ : Page)]).head?.map (·.widget)
    rw [ha, hg.first]
    cases g.pages <;> rfl
  current := hg.current
  dots := hg.dots

/-- A group that needs no dots is complete without them. -/
theorem Filling.inStep (hg : g.Filling s) (hn : ¬ (g.indicator = .dots ∧ 1 < g.pages.length)) :
    g.InStep s where
  tiles := hg.tiles
  dotted := iff_of_false (by simp [hg.dots]) hn
  dots d hd := by
    rw [hg.dots] at hd
    cases hd
  active hp := by
    rw [hg.current]
    exact hg.active hp
  colored d hd := by
    rw [hg.dots] at hd
    cases hd

end PageGroup

namespace Navigation

variable {n m : Navigation} {s t : Screen} {h : Handle} {gs : List PageGroup} {g : PageGroup}

theorem modifyGroup_last (hn : n.groups = gs ++ [g]) (f : PageGroup → PageGroup) :
    n.modifyGroup gs.length f = { n with groups := gs ++ [f g] } := by
  have hlast (gs : List PageGroup) : (gs ++ [g]).modify gs.length f = gs ++ [f g] := by
    induction gs with
    | nil => rfl
    | cons k gs ih => simpa using ih
  rw [modifyGroup, hn, hlast]

/-! ## Pages and views -/

theorem addPage_leaves (hs : s.Sound) {id : String} {size : Size}
    (he : n.addPage s id size = (h, m, t)) :
    s.Leaves (· = Handle.screen) t ∧ t.parent? h = some Handle.screen := by
  unfold addPage at he
  split at he
  next k s₁ hc =>
  extract_lets s₂ s₃ at he
  simp only [Prod.mk.injEq] at he
  obtain ⟨rfl, -, rfl⟩ := he
  have hsize : Screen.Restyles (· = k) s₁ s₂ :=
    (Screen.setSize_restyles _ k _ _).trans (Screen.setPos_restyles _ k _ _)
  have hlooks : Screen.Restyles (· = k) s₁ s₃ :=
    hsize.trans (Screen.applyStyles_restyles _ k _)
  exact ⟨hs.leaves_make hs.screen_live hc hlooks.leaves,
    (Screen.parent?_congr hlooks.shape k).trans (hs.parent?_new hs.screen_live hc)⟩

/-- A new group has no tiles yet. -/
theorem addGroup_filling (hs : s.Sound) {id defaultPage : String} {orientation : Orientation}
    {indicator : Indicator} {size : Size} {gi : Nat}
    (he : n.addGroup s id defaultPage orientation indicator size = (gi, m, t)) :
    ∃ g : PageGroup, g.id = id ∧ g.pages = [] ∧ s.isLive g.view = false ∧ g.view.generation ≠ 0 ∧
      gi = n.groups.length ∧ m = { n with groups := n.groups ++ [g] } ∧
      s.Leaves (· = Handle.screen) t ∧ t.parent? g.view = some Handle.screen ∧ g.Filling t := by
  unfold addGroup at he
  split at he
  next k s₁ hc =>
  extract_lets s₂ s₃ s₄ s₅ new at he
  simp only [Prod.mk.injEq] at he
  obtain ⟨rfl, rfl, rfl⟩ := he
  obtain ⟨hfresh, -, hempty, hmade, hlater⟩ := hs.new_widget hs.screen_live hc
  have hsize : Screen.Restyles (· = k) s₁ s₂ :=
    (Screen.setSize_restyles _ k _ _).trans (Screen.setPos_restyles _ k _ _)
  have hlooks : Screen.Restyles (· = k) s₂ s₅ :=
    ((Screen.applyStyle_restyles s₂ k _).trans (Screen.configure_restyles s₃ k _)).trans
      (Screen.configure_restyles s₄ k _)
  have hall := hsize.trans hlooks
  refine ⟨new, rfl, rfl, hfresh, hlater, rfl, rfl, hs.leaves_make hs.screen_live hc hall.leaves,
    (Screen.parent?_congr hall.shape k).trans (hs.parent?_new hs.screen_live hc),
    (hall.children k).trans hempty, ?_, rfl, rfl⟩
  have hactive : s₁.activeTile? k = none := by
    rw [Screen.activeTile?, hmade]
    rfl
  have hsame : s₅.activeTile? k = s₁.activeTile? k := by
    have hsized : s₂.activeTile? k = s₁.activeTile? k :=
      (Screen.activeTile?_modify (f := (·.setPos 0 0)) (fun _ => rfl) k).trans
        (Screen.activeTile?_modify (f := (·.setSize (s₁.parentSize? k) size.width size.height))
          (fun w => by rw [Widget.setSize, Widget.realign]; split <;> rfl) k)
    have hstyled : s₃.activeTile? k = s₂.activeTile? k :=
      Screen.activeTile?_modify (f := (·.applyStyle (.bgOpacity 0))) (fun _ => rfl) k
    have hturned : s₄.activeTile? k = s₃.activeTile? k :=
      Screen.activeTile?_modify (f := (·.configure (.vertical (orientation = .vertical))))
        (fun _ => rfl) k
    have hbar : s₅.activeTile? k = s₄.activeTile? k :=
      Screen.activeTile?_modify (f := (·.configure (.scrollbar (indicator = .scrollbar))))
        (fun _ => rfl) k
    exact ((hbar.trans hturned).trans hstyled).trans hsized
  exact hsame.trans hactive

/-! ## Tiles -/

/-- A new tile is the last in the view, and the active one if it is the first. -/
theorem addTile?_filling (hs : s.Sound) (hn : n.groups = gs ++ [g]) (hview : s.isLive g.view = true)
    (hg : g.Filling s) (page : String) (size : Size) :
    ∃ h m t, n.addTile? s gs.length page size = some (h, m, t) ∧ s.isLive h = false ∧
      m = { n with groups := gs ++ [{ g with pages := g.pages ++ [⟨page, h⟩] }] } ∧
      s.Leaves (· = g.view) t ∧
      ({ g with pages := g.pages ++ [⟨page, h⟩] } : PageGroup).Filling t := by
  have hlast : n.groups[gs.length]? = some g := by
    rw [hn]
    simp
  unfold addTile?
  rw [hlast, Option.map_some]
  extract_lets place
  split
  next k s₁ hc =>
  extract_lets s₂ s₃ s₄ s₅
  refine ⟨k, _, _, rfl, ?_⟩
  obtain ⟨hfresh, -⟩ := hs.new_widget hview hc
  have hne : g.view ≠ k := by
    rintro he
    rw [he, hfresh] at hview
    cases hview
  have hplace : Screen.Restyles (· = k) s₂ s₃ := by
    unfold s₃
    split
    · exact Screen.setPos_restyles _ k _ _
    · exact Screen.setPos_restyles _ k _ _
  have hlooks : Screen.Restyles (· = k) s₁ s₄ :=
    ((Screen.setSize_restyles _ k _ _).trans hplace).trans (Screen.applyStyle_restyles _ k _)
  have hactive : Screen.Restyles (· = g.view) s₄ s₅ := by
    unfold s₅
    split
    · exact Screen.setActiveTile_restyles _ _ _
    · exact Screen.Restyles.refl _
  have hmake : s.Leaves (· = g.view) s₄ := hs.leaves_make hview hc hlooks.leaves
  have hlive : s₄.isLive g.view = true := by
    have hlater := Screen.later_create s .tile g.view hs
    rw [hc] at hlater
    exact (hlooks.isLive g.view).trans (hlater.live g.view hview)
  have hsame : s₄.activeTile? g.view = s.activeTile? g.view := by
    have hcreated : s₁.widget? g.view = s.widget? g.view := by
      have hw := hs.widget?_create .tile g.view g.view
      rwa [hc, if_neg hne] at hw
    rw [Screen.activeTile?, Screen.activeTile?, hlooks.frame g.view hne, hcreated]
  refine ⟨hfresh, modifyGroup_last hn _, hmake.trans hactive.leaves fun _ _ hk => hk,
    hg.add page ?_ ?_⟩
  · rw [hactive.children, hlooks.children, hs.children_create_in hview hc]
  · unfold s₅
    split
    · rw [Screen.activeTile?_setActiveTile hlive, if_pos rfl]
    · exact hsame

/-! ## Dots -/

/-- The row has got some dots on `t`, the first of which stands out. -/
structure Dotted (row : Handle) (count : Nat) (s t : Screen) : Prop where
  sound : t.Sound
  leaves : s.Leaves (· = row) t
  live : t.isLive row = true
  count : (t.children row).length = count
  colored : ∀ i k, (t.children row)[i]? = some k →
    (t.style k).bgColor = some (PageGroup.dotColor i 0)

theorem Dotted.addDot {row : Handle} {i : Nat} (hd : Dotted row i s t) (horizontal : Bool) :
    Dotted row (i + 1) s (addDot horizontal row t i) := by
  have hlater := later_addDot horizontal row t i hd.sound
  unfold Navigation.addDot at hlater ⊢
  split at hlater
  next k s₁ hc =>
  extract_lets s₂ along across s₃ at hlater
  obtain ⟨-, hlive, -⟩ := hd.sound.new_widget hd.live hc
  have hplace : Screen.Restyles (· = k) s₂ s₃ := by
    unfold s₃
    split
    · exact Screen.setPos_restyles _ k _ _
    · exact Screen.setPos_restyles _ k _ _
  have hbefore : Screen.Restyles (· = k) s₁ s₃ := (Screen.setSize_restyles _ k _ _).trans hplace
  have hlooks := hbefore.trans (Screen.applyStyles_restyles s₃ k
    [.radius roundRadius, .borderWidth 0, .bgOpacity Style.cover,
      .bgColor (PageGroup.dotColor i 0)])
  have hleaves := hd.sound.leaves_make hd.live hc hlooks.leaves
  have hchildren := (hlooks.children row).trans (hd.sound.children_create_in hd.live hc)
  refine ⟨hlater.sound, hd.leaves.trans hleaves fun _ _ hk => hk, hlater.live row hd.live,
    by rw [hchildren, List.length_append, hd.count]; rfl, fun j d hj => ?_⟩
  rw [hchildren] at hj
  rcases Nat.lt_or_ge j (t.children row).length with hlt | hle
  · rw [List.getElem?_append_left hlt] at hj
    have hin := List.mem_of_getElem? hj
    have hne : d ≠ row := hd.sound.parent?_ne (hd.sound.mem_children_iff.mp hin)
    rw [hleaves.style (hd.sound.children_live hin) hne]
    exact hd.colored j d hj
  · rw [List.getElem?_append_right hle, hd.count, List.getElem?_singleton] at hj
    rw [hd.count] at hle
    obtain ⟨hzero, hdot⟩ := Option.ite_none_right_eq_some.mp hj
    cases hdot
    have hji : j = i := by omega
    have hlive₃ : s₃.isLive k = true := (hbefore.isLive k).trans hlive
    rw [hji]
    simp only [Screen.applyStyles, List.foldl_cons, List.foldl_nil]
    rw [Screen.style_applyStyle (by simpa only [Screen.isLive_applyStyle] using hlive₃)]
    rfl

theorem addDots_dotted (hs : s.Sound) (horizontal : Bool) {row : Handle}
    (hrow : s.isLive row = true) (hempty : s.children row = []) (count : Nat) :
    Dotted row count s ((List.range count).foldl (addDot horizontal row) s) := by
  induction count with
  | zero => exact ⟨hs, Screen.Leaves.refl s, hrow, by simp [hempty], by simp [hempty]⟩
  | succ count ih =>
    rw [List.range_succ, List.foldl_append]
    exact ih.addDot horizontal

/-- A group that gets its dots is complete. -/
theorem Dotted.inStep {row : Handle} (hd : Dotted row g.pages.length s t) (hg : g.Filling t)
    (hn : g.indicator = .dots ∧ 1 < g.pages.length) :
    ({ g with dots := some row } : PageGroup).InStep t where
  tiles := hg.tiles
  dotted := iff_of_true rfl hn
  dots d hk := by
    cases hk
    exact hd.count
  active hp := by
    show ∃ p, g.pages[g.current]? = some p ∧ _
    rw [hg.current]
    exact hg.active hp
  colored d hk i k hi := by
    cases hk
    show _ = some (PageGroup.dotColor i g.current)
    rw [hg.current]
    exact hd.colored i k hi

/-- A complete group is in step. -/
theorem finishGroup_inStep (hs : s.Sound) (hn : n.groups = gs ++ [g])
    (hview : s.isLive g.view = true) (hscreen : g.view ≠ Handle.screen) (hg : g.Filling s)
    (he : n.finishGroup s gs.length = (m, t)) :
    ∃ dots, m = { n with groups := gs ++ [{ g with dots := dots }] } ∧
      s.Leaves (· = Handle.screen) t ∧ ({ g with dots := dots } : PageGroup).InStep t := by
  have hlast : n.groups[gs.length]? = some g := by
    rw [hn]
    simp
  unfold finishGroup at he
  split at he
  · next hnone =>
    rw [hlast] at hnone
    cases hnone
  next g' hg' =>
  obtain rfl : g = g' := Option.some.inj (hlast.symm.trans hg')
  split at he
  · next hnone =>
    cases he
    have hsame : ({ g with dots := none } : PageGroup) = g :=
      congrArg (fun dots => ({ g with dots := dots } : PageGroup)) hg.dots.symm
    refine ⟨none, ?_, Screen.Leaves.refl s, ?_⟩
    · rw [hsame, ← hn]
    · rw [hsame]
      exact hg.inStep (by simpa [or_iff_not_imp_left] using hnone)
  · next hsome =>
    rw [not_or, not_not, Nat.not_le] at hsome
    extract_lets count horizontal at he
    split at he
    next row s₁ hc =>
    extract_lets s₂ s₃ s₄ s₅ at he
    simp only [Prod.mk.injEq] at he
    obtain ⟨rfl, rfl⟩ := he
    obtain ⟨hfresh, -⟩ := hs.new_widget hs.screen_live hc
    have hplace : Screen.Restyles (· = row) s₂ s₃ := by
      unfold s₃
      split
      · exact (Screen.setSize_restyles _ row _ _).trans (Screen.align_restyles _ row _ _)
      · exact (Screen.setSize_restyles _ row _ _).trans (Screen.align_restyles _ row _ _)
    have hlooks : Screen.Restyles (· = row) s₁ s₃ :=
      (Screen.applyStyles_restyles _ row _).trans hplace
    obtain ⟨hs₄, hraised, hlive₄, hempty₄⟩ := hs.make_raised hc hlooks
    have hdotted : Dotted row count s₄ s₅ := addDots_dotted hs₄ horizontal hlive₄ hempty₄ count
    have hall : s.Leaves (· = Handle.screen) s₅ := hraised.trans hdotted.leaves fun k hk he => by
      rw [he, hfresh] at hk
      cases hk
    exact ⟨some row, modifyGroup_last hn _, hall,
      hdotted.inStep (hg.leave hall hview hscreen) hsome⟩

end Navigation
end ScreenMarkup
