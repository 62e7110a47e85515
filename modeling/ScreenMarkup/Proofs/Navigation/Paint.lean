import ScreenMarkup.Proofs.Navigation.Display
import ScreenMarkup.Proofs.Screen.Ancestry
import ScreenMarkup.Proofs.Screen.Paint

/-!
# Showing a page paints dots only

Showing a page hides widgets and makes a tile the active one. The only styles
that it changes are those of the dots of a group, and they stand below the
group's indicator. So every widget that stands below something else keeps its
style.
-/

set_option autoImplicit false

namespace ScreenMarkup.Navigation

variable {n m : Navigation} {s t : Screen} {h p : Handle} {g : PageGroup}

theorem setHiddens_shape (es : List (Handle × Bool)) (s : Screen) :
    (s.setHiddens es).shape = s.shape := by
  induction es generalizing s with
  | nil => rfl
  | cons e es ih => exact (ih (s.setHidden e.1 e.2)).trans (Screen.modify_shape _)

theorem style_setHiddens (es : List (Handle × Bool)) (s : Screen) (h : Handle) :
    (s.setHiddens es).style h = s.style h := by
  induction es generalizing s with
  | nil => rfl
  | cons e es ih =>
    have hset : (s.setHidden e.1 e.2).style h = s.style h :=
      Screen.style_modify (f := ({ · with hidden := e.2 })) (fun _ => rfl) h
    exact (ih (s.setHidden e.1 e.2)).trans hset

theorem style_highlight (hg : ∀ d, g.dots = some d → h ∉ s.children d) (active : Nat) :
    (g.highlight s active).style h = s.style h := by
  have hdots (dots : List (Handle × Nat)) (hd : ∀ dot ∈ dots, h ≠ dot.1) (s : Screen) :
      (dots.foldl (fun s dot =>
        s.applyStyle dot.1 (.bgColor (PageGroup.dotColor dot.2 active))) s).style h = s.style h := by
    induction dots generalizing s with
    | nil => rfl
    | cons dot dots ih =>
      exact (ih (fun e he => hd e (List.mem_cons_of_mem _ he)) _).trans
        (Screen.style_of_ne (hd dot List.mem_cons_self) _)
  unfold PageGroup.highlight
  split
  · next d hd =>
    refine hdots _ (fun dot hdot => ?_) s
    rintro rfl
    exact hg d hd (List.mem_of_getElem? (List.mem_zipIdx_iff_getElem?.mp hdot))
  · rfl

/-- The widget is no dot of a group. -/
def Undotted (n : Navigation) (s : Screen) (h : Handle) : Prop :=
  ∀ g ∈ n.groups, ∀ d, g.dots = some d → h ∉ s.children d

/-- What stands below anything but an indicator is no dot. -/
theorem WellFormed.undotted (hn : n.WellFormed s) (hs : s.Sound) (hp : s.parent? h = some p)
    (hk : s.kind? p ≠ some .indicator) : n.Undotted s h := by
  intro g hg d hd hh
  rw [hs.mem_children_iff, hp, Option.some.injEq] at hh
  exact hk (hh ▸ hn.dots g hg d hd)

theorem style_showPage (n : Navigation) (s : Screen) (i : Nat) (h : Handle) :
    (n.showPage s i).2.style h = s.style h := by
  rw [showPage, hideGroups_eq, hideKeyboards_eq, hidePages_eq, setHiddens_append,
    setHiddens_append]
  exact style_setHiddens _ s h

theorem style_showTile (hh : n.Undotted s h) (gi pi : Nat) :
    (n.showTile s gi pi).2.style h = s.style h := by
  unfold showTile
  extract_lets s₁ s₂
  have hscreen : s₁ = s.setHiddens (n.pageFlags (fun _ => true) ++
      (n.groupFlags (fun j => decide (j ≠ gi)) ++ n.keyboardFlags)) := by
    unfold s₁
    rw [hidePages_eq, hideGroups_eq, hideKeyboards_eq, setHiddens_append, setHiddens_append]
  have hstyle : s₁.style h = s.style h := by rw [hscreen, style_setHiddens]
  have hshape : s₁.shape = s.shape := by rw [hscreen, setHiddens_shape]
  show s₂.style h = s.style h
  unfold s₂
  split
  · next g hg =>
    extract_lets s₃
    have hactive : s₃.style h = s₁.style h ∧ s₃.shape = s₁.shape := by
      unfold s₃
      split
      · next q _ =>
        exact ⟨Screen.style_modify (f := ({ · with activeTile := some q.widget })) (fun _ => rfl) h,
          Screen.modify_shape _⟩
      · exact ⟨rfl, rfl⟩
    have hdots : ∀ d, g.dots = some d → h ∉ s₃.children d := by
      intro d hd
      rw [Screen.children_congr (hactive.2.trans hshape)]
      exact hh g (List.mem_of_getElem? hg) d hd
    rw [style_highlight hdots, hactive.1, hstyle]
  · exact hstyle

theorem style_display {path : String} (hh : n.Undotted s h)
    (hd : n.display s path = .ok (m, t)) : t.style h = s.style h := by
  unfold display at hd
  cases hg : n.goal path with
  | error e =>
    rw [hg] at hd
    cases hd
  | ok goal =>
    rw [hg] at hd
    have he : n.showGoal s goal = (m, t) := Except.ok.inj hd
    cases goal with
    | page i =>
      have hstyle := style_showPage n s i h
      rwa [show n.showPage s i = (m, t) from he] at hstyle
    | tile gi pi =>
      have hstyle := style_showTile hh gi pi
      rwa [show n.showTile s gi pi = (m, t) from he] at hstyle

end ScreenMarkup.Navigation
