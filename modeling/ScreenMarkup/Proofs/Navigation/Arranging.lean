import ScreenMarkup.Navigation.Construction
import ScreenMarkup.Proofs.Screen.References
import ScreenMarkup.Proofs.Session.WellFormed

/-!
# What making pages and groups keeps

Pages, views, tiles, rows and dots are made, placed and styled, a row is
raised, and a view gets its first tile to show. Whatever each of these steps
keeps is kept by making pages and groups.
-/

set_option autoImplicit false

namespace ScreenMarkup

namespace Screen

/-- A relation that the steps of making pages and groups stay within. -/
structure Arranging (R : Screen → Screen → Prop) : Prop extends Steps R where
  create : ∀ s {kind : WidgetKind} parent, kind.navigates = true → R s (s.create kind parent).2
  raise : ∀ s h, R s (s.raise h)
  setActiveTile : ∀ {s t u view parent tile}, s.create .tile parent = (tile, t) → R t u →
    R s (u.setActiveTile view tile)

theorem arranging_links : Arranging Links where
  toSteps := steps_links
  create s kind parent _ := links_create s kind parent
  raise := links_raise
  setActiveTile := links_setActiveTile

end Screen

open Screen

namespace Screen.Arranging

variable {R : Screen → Screen → Prop} {n m : Navigation} {s t u : Screen} {h : Handle} {gi : Nat}
  {size : Size}

theorem make (hR : Arranging R) {kind : WidgetKind} {parent : Handle}
    (hn : kind.navigates = true) (hc : s.create kind parent = (h, t)) (hu : R t u) : R s u := by
  have hcreate := hR.create s parent hn
  rw [hc] at hcreate
  exact hR.trans hcreate hu

theorem addPage (hR : Arranging R) {id : String} (he : n.addPage s id size = (h, m, t)) :
    R s t := by
  unfold Navigation.addPage at he
  split at he
  next k s₁ hc =>
  extract_lets s₂ s₃ at he
  simp only [Prod.mk.injEq] at he
  obtain ⟨-, -, rfl⟩ := he
  have hplace : R s₁ s₂ := hR.trans ((hR.styling k).setSize s₁ _ _) ((hR.styling k).setPos _ _ _)
  exact hR.make rfl hc (hR.trans hplace ((hR.styling k).applyStyles s₂ _))

theorem addGroup (hR : Arranging R) {id defaultPage : String} {orientation : Orientation}
    {indicator : Indicator}
    (he : n.addGroup s id defaultPage orientation indicator size = (gi, m, t)) : R s t := by
  unfold Navigation.addGroup at he
  split at he
  next k s₁ hc =>
  extract_lets s₂ s₃ s₄ s₅ new at he
  simp only [Prod.mk.injEq] at he
  obtain ⟨-, -, rfl⟩ := he
  have hplace : R s₁ s₂ := hR.trans ((hR.styling k).setSize s₁ _ _) ((hR.styling k).setPos _ _ _)
  have hstyle : R s₂ s₃ := (hR.styling k).applyStyle s₂ _
  have hset : R s₃ s₅ := hR.trans (hR.configure s₃ k (.vertical _) (by simp))
    (hR.configure s₄ k (.scrollbar _) (by simp))
  exact hR.make rfl hc (hR.trans hplace (hR.trans hstyle hset))

theorem addTile? (hR : Arranging R) {id : String}
    (he : n.addTile? s gi id size = some (h, m, t)) : R s t := by
  obtain ⟨g, hg, he⟩ := Option.map_eq_some_iff.mp he
  extract_lets place at he
  split at he
  next k s₁ hc =>
  extract_lets s₂ s₃ s₄ s₅ at he
  simp only [Prod.mk.injEq] at he
  obtain ⟨-, -, rfl⟩ := he
  have hplace : R s₂ s₃ := by
    unfold s₃
    split
    · exact (hR.styling k).setPos s₂ _ _
    · exact (hR.styling k).setPos s₂ _ _
  have hstyle : R s₃ s₄ := (hR.styling k).applyStyle s₃ _
  have hset : R s₁ s₄ := hR.trans ((hR.styling k).setSize s₁ _ _) (hR.trans hplace hstyle)
  show R s s₅
  unfold s₅
  split
  · exact hR.setActiveTile hc hset
  · exact hR.make rfl hc hset

theorem addDot (hR : Arranging R) (horizontal : Bool) (row : Handle) (s : Screen) (i : Nat) :
    R s (Navigation.addDot horizontal row s i) := by
  unfold Navigation.addDot
  split
  next k s₁ hc =>
  extract_lets s₂ along across s₃
  have hplace : R s₂ s₃ := by
    unfold s₃
    split
    · exact (hR.styling k).setPos s₂ _ _
    · exact (hR.styling k).setPos s₂ _ _
  exact hR.make rfl hc <| hR.trans ((hR.styling k).setSize s₁ _ _) <|
    hR.trans hplace ((hR.styling k).applyStyles s₃ _)

theorem finishGroup (hR : Arranging R) (he : n.finishGroup s gi = (m, t)) : R s t := by
  unfold Navigation.finishGroup at he
  split at he
  · cases he
    exact hR.refl s
  · next g hg =>
    split at he
    · cases he
      exact hR.refl s
    · extract_lets count horizontal at he
      split at he
      next row s₁ hc =>
      extract_lets s₂ s₃ s₄ s₅ at he
      simp only [Prod.mk.injEq] at he
      obtain ⟨-, rfl⟩ := he
      have hplace : R s₂ s₃ := by
        unfold s₃
        split
        · exact hR.trans ((hR.styling row).setSize s₂ _ _) (hR.align _ row _ _)
        · exact hR.trans ((hR.styling row).setSize s₂ _ _) (hR.align _ row _ _)
      have hdots : R s₄ s₅ := hR.foldl (hR.addDot _ row) _ s₄
      exact hR.make rfl hc <| hR.trans ((hR.styling row).applyStyles s₁ _) <|
        hR.trans hplace (hR.trans (hR.raise s₃ row) hdots)

end Screen.Arranging
end ScreenMarkup
