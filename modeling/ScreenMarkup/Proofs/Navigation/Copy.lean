import ScreenMarkup.Navigation.Construction
import ScreenMarkup.Proofs.Screen.CopyChange
import ScreenMarkup.Proofs.Session.Renaming

/-!
# Pages of copies

Making and showing pages on a copy of a screen, with a renamed navigation,
gives a copy and the renamed navigation again.
-/

set_option autoImplicit false

namespace ScreenMarkup

variable {ρ : Renaming} {s t : Screen} {h k : Handle}

namespace Screen.Copies

theorem exists_create (hc : Copies ρ s t) (kind : WidgetKind) (parent : Handle) :
    ∃ h s' t', s.create kind parent = (h, s') ∧ t.create kind (ρ parent) = (ρ h, t') ∧
      Copies ρ s' t' :=
  ⟨_, _, _, rfl, Prod.ext (hc.create kind parent).1 rfl, (hc.create kind parent).2⟩

theorem exists_create_top (hc : Copies ρ s t) (kind : WidgetKind) :
    ∃ h s' t', s.create kind Handle.screen = (h, s') ∧
      t.create kind Handle.screen = (ρ h, t') ∧ Copies ρ s' t' := by
  have hcreate := hc.exists_create kind Handle.screen
  rwa [ρ.screen] at hcreate

theorem stack (hc : Copies ρ s t) (cs : Controls) :
    Copies ρ (s.stack cs) (t.stack (cs.map (Control.rename ρ))) := by
  unfold Screen.stack
  rw [sunken_rename, raised_rename, List.foldl_map, List.foldl_map]
  exact foldl (fun _ _ e hc => hc.raise e.2)
    (foldl (fun _ _ e hc => hc.moveTo e.2 0) hc (sunken cs)) (raised cs)

/-! ## Showing -/

theorem hideKeyboards (hc : Copies ρ s t) (n : Navigation) :
    Copies ρ (n.hideKeyboards s) ((n.rename ρ).hideKeyboards t) := by
  unfold Navigation.hideKeyboards Navigation.rename
  rw [List.foldl_map]
  exact foldl (fun _ _ k hc => hc.setHidden k.2 true) hc n.keyboards

theorem hidePages (hc : Copies ρ s t) (n : Navigation) (hidden : Nat → Bool) :
    Copies ρ (n.hidePages s hidden) ((n.rename ρ).hidePages t hidden) := by
  unfold Navigation.hidePages Navigation.rename
  rw [List.zipIdx_map, List.foldl_map]
  exact foldl (fun _ _ p hc => hc.setHidden p.1.widget _) hc n.pages.zipIdx

theorem setGroupHidden (hc : Copies ρ s t) (g : PageGroup) (b : Bool) :
    Copies ρ (g.setHidden s b) ((g.rename ρ).setHidden t b) := by
  have hview := hc.setHidden g.view b
  unfold PageGroup.setHidden PageGroup.rename
  cases g.dots with
  | none => exact hview
  | some d => exact hview.setHidden d b

theorem hideGroups (hc : Copies ρ s t) (n : Navigation) (hidden : Nat → Bool) :
    Copies ρ (n.hideGroups s hidden) ((n.rename ρ).hideGroups t hidden) := by
  unfold Navigation.hideGroups Navigation.rename
  rw [List.zipIdx_map, List.foldl_map]
  exact foldl (fun _ _ g hc => hc.setGroupHidden g.1 _) hc n.groups.zipIdx

theorem highlight (hc : Copies ρ s t) (g : PageGroup) (active : Nat) :
    Copies ρ (g.highlight s active) ((g.rename ρ).highlight t active) := by
  unfold PageGroup.highlight PageGroup.rename
  cases g.dots with
  | none => exact hc
  | some d =>
    simp only [Option.map_some, hc.children, List.zipIdx_map, List.foldl_map]
    exact foldl (fun _ _ dot hc => hc.applyStyle dot.1 _) hc (s.children d).zipIdx

theorem showPage (hc : Copies ρ s t) (n : Navigation) (i : Nat) :
    ((n.rename ρ).showPage t i).1 = ((n.showPage s i).1).rename ρ ∧
      Copies ρ (n.showPage s i).2 ((n.rename ρ).showPage t i).2 := by
  refine ⟨rfl, ?_⟩
  unfold Navigation.showPage
  exact ((hc.hideGroups n fun _ => true).hideKeyboards n).hidePages n fun j => j ≠ i

theorem showTile (hc : Copies ρ s t) (n : Navigation) (gi pi : Nat) :
    ((n.rename ρ).showTile t gi pi).1 = ((n.showTile s gi pi).1).rename ρ ∧
      Copies ρ (n.showTile s gi pi).2 ((n.rename ρ).showTile t gi pi).2 := by
  have hhidden := ((hc.hidePages n fun _ => true).hideGroups n fun i => i ≠ gi).hideKeyboards n
  have hm := Navigation.modifyGroup_rename (f := ρ) (g := ({ · with current := pi }))
    (k := ({ · with current := pi })) (fun _ => rfl) n gi
  constructor
  · simp only [Navigation.showTile, hm]
    rfl
  · simp only [Navigation.showTile, Navigation.groups_rename]
    cases n.groups[gi]? with
    | none => exact hhidden
    | some g =>
      have hpage : (g.rename ρ).pages[pi]? = g.pages[pi]?.map (Page.rename ρ) :=
        List.getElem?_map ..
      simp only [Option.map_some, hpage]
      cases g.pages[pi]? with
      | none => exact hhidden.highlight g pi
      | some p => exact (hhidden.setActiveTile g.view p.widget).highlight g pi

theorem showGoal (hc : Copies ρ s t) (n : Navigation) (goal : Navigation.Goal) :
    ((n.rename ρ).showGoal t goal).1 = ((n.showGoal s goal).1).rename ρ ∧
      Copies ρ (n.showGoal s goal).2 ((n.rename ρ).showGoal t goal).2 := by
  cases goal with
  | page i => exact hc.showPage n i
  | tile gi pi => exact hc.showTile n gi pi

/-- Both paths lead nowhere for one reason, or both lead to copies. -/
theorem display (hc : Copies ρ s t) (n : Navigation) (path : String) :
    (∃ e, n.display s path = .error e ∧ (n.rename ρ).display t path = .error e) ∨
      ∃ m s' t', n.display s path = .ok (m, s') ∧
        (n.rename ρ).display t path = .ok (m.rename ρ, t') ∧ Copies ρ s' t' := by
  unfold Navigation.display
  rw [Navigation.goal_rename]
  cases n.goal path with
  | error e => exact .inl ⟨e, rfl, rfl⟩
  | ok goal =>
    obtain ⟨hn, hs⟩ := hc.showGoal n goal
    exact .inr ⟨_, _, _, rfl, congrArg Except.ok (Prod.ext hn rfl), hs⟩

/-! ## Making -/

theorem addPage (hc : Copies ρ s t) (n : Navigation) (id : String) (size : Size) :
    ∃ h m s' t', n.addPage s id size = (h, m, s') ∧
      (n.rename ρ).addPage t id size = (ρ h, m.rename ρ, t') ∧ Copies ρ s' t' := by
  obtain ⟨h, s₁, t₁, hs, ht, hc₁⟩ := hc.exists_create_top .page
  simp only [Navigation.addPage, hs, ht]
  refine ⟨_, _, _, _, rfl, Prod.ext rfl (Prod.ext ?_ rfl),
    ((hc₁.setSize h size.width size.height).setPos h 0 0).applyStyles h _⟩
  simp [Navigation.rename, Page.rename]

theorem addGroup (hc : Copies ρ s t) (n : Navigation) (id defaultPage : String)
    (orientation : Orientation) (indicator : Indicator) (size : Size) :
    ∃ gi m s' t', n.addGroup s id defaultPage orientation indicator size = (gi, m, s') ∧
      (n.rename ρ).addGroup t id defaultPage orientation indicator size = (gi, m.rename ρ, t') ∧
        Copies ρ s' t' := by
  obtain ⟨h, s₁, t₁, hs, ht, hc₁⟩ := hc.exists_create_top .tileView
  simp only [Navigation.addGroup, hs, ht]
  refine ⟨_, _, _, _, rfl, Prod.ext (List.length_map ..) (Prod.ext ?_ rfl),
    ((((hc₁.setSize h size.width size.height).setPos h 0 0).applyStyle h _).configure h
      (.vertical _) rfl).configure h (.scrollbar _) rfl⟩
  simp [Navigation.rename, PageGroup.rename]

theorem addTile? (hc : Copies ρ s t) (n : Navigation) (gi : Nat) (page : String) (size : Size) :
    (n.addTile? s gi page size = none ∧ (n.rename ρ).addTile? t gi page size = none) ∨
      ∃ h m s' t', n.addTile? s gi page size = some (h, m, s') ∧
        (n.rename ρ).addTile? t gi page size = some (ρ h, m.rename ρ, t') ∧ Copies ρ s' t' := by
  unfold Navigation.addTile?
  rw [Navigation.groups_rename]
  cases n.groups[gi]? with
  | none => exact .inl ⟨rfl, rfl⟩
  | some g =>
    right
    obtain ⟨h, s₁, t₁, hs, ht, hc₁⟩ := hc.exists_create .tile g.view
    have hview : (g.rename ρ).view = ρ g.view := rfl
    have hplace : (g.rename ρ).pages.length = g.pages.length := List.length_map ..
    have hempty : (g.rename ρ).pages.isEmpty = g.pages.isEmpty := List.isEmpty_map
    have horientation : (g.rename ρ).orientation = g.orientation := rfl
    simp only [Option.map_some, hview, hplace, hempty, horientation, hs, ht]
    have hm := Navigation.modifyGroup_rename (f := ρ)
      (g := fun g => { g with pages := g.pages ++ [⟨page, h⟩] })
      (k := fun g => { g with pages := g.pages ++ [⟨page, ρ h⟩] })
      (fun k => by simp [PageGroup.rename, Page.rename]) n gi
    refine ⟨_, _, _, _, rfl, congrArg some (Prod.ext rfl (Prod.ext hm rfl)), ?_⟩
    have hsize := hc₁.setSize h size.width size.height
    cases g.orientation with
    | horizontal =>
      have hstyle := (hsize.setPos h (g.pages.length * size.width) 0).applyStyle h (.bgOpacity 0)
      exact (hstyle.setActiveTile g.view h).ite hstyle
    | vertical =>
      have hstyle := (hsize.setPos h 0 (g.pages.length * size.height)).applyStyle h (.bgOpacity 0)
      exact (hstyle.setActiveTile g.view h).ite hstyle

theorem addDot (hc : Copies ρ s t) (horizontal : Bool) (row : Handle) (i : Nat) :
    Copies ρ (Navigation.addDot horizontal row s i) (Navigation.addDot horizontal (ρ row) t i) := by
  obtain ⟨h, s₁, t₁, hs, ht, hc₁⟩ := hc.exists_create .dot row
  have hsize := hc₁.setSize h Navigation.dotSize Navigation.dotSize
  simp only [Navigation.addDot, hs, ht]
  exact ((hsize.setPos h _ _).ite (hsize.setPos h _ _)).applyStyles h _

theorem finishGroup (hc : Copies ρ s t) (n : Navigation) (gi : Nat) :
    ∃ m s' t', n.finishGroup s gi = (m, s') ∧
      (n.rename ρ).finishGroup t gi = (m.rename ρ, t') ∧ Copies ρ s' t' := by
  unfold Navigation.finishGroup
  rw [Navigation.groups_rename]
  cases n.groups[gi]? with
  | none => exact ⟨_, _, _, rfl, rfl, hc⟩
  | some g =>
    have hcount : (g.rename ρ).pages.length = g.pages.length := List.length_map ..
    have hindicator : (g.rename ρ).indicator = g.indicator := rfl
    have horientation : (g.rename ρ).orientation = g.orientation := rfl
    simp only [Option.map_some, hcount, hindicator, horientation]
    split
    · exact ⟨_, _, _, rfl, rfl, hc⟩
    · obtain ⟨row, s₁, t₁, hs, ht, hc₁⟩ := hc.exists_create_top .indicator
      simp only [hs, ht]
      have hm := Navigation.modifyGroup_rename (f := ρ) (g := ({ · with dots := some row }))
        (k := ({ · with dots := some (ρ row) })) (fun _ => rfl) n gi
      refine ⟨_, _, _, rfl, Prod.ext hm rfl, foldl (fun _ _ i hc => hc.addDot _ row i) ?_ _⟩
      have hstyle := hc₁.applyStyles row [.bgOpacity 0, .borderWidth 0]
      exact (((hstyle.setSize row _ _).align row _ _).ite
        ((hstyle.setSize row _ _).align row _ _)).raise row

end Screen.Copies
end ScreenMarkup
