import ScreenMarkup.Proofs.Navigation.Display
import ScreenMarkup.Proofs.Screen.Ancestry

/-!
# The screen's own widget

Pages and groups are widgets below the screen. Making them, showing them and
swiping them leaves the widget of the screen itself as it is.
-/

set_option autoImplicit false

namespace ScreenMarkup

namespace Screen

variable {s t u : Screen} {h : Handle} {H : Handle → Prop} {P : Widget → Widget → Prop}

def SameTop (s t : Screen) : Prop := t.widget? Handle.screen = s.widget? Handle.screen

theorem SameTop.refl (s : Screen) : SameTop s s := rfl

theorem SameTop.trans (h₁ : SameTop s t) (h₂ : SameTop t u) : SameTop s u := Eq.trans h₂ h₁

theorem sameTop_modify (hh : h ≠ Handle.screen) (f : Widget → Widget) :
    SameTop s (s.modify h f) := by
  rw [SameTop, widget?_modify, if_neg hh.symm]

theorem Touches.sameTop (ht : Touches H P s t) (hH : ¬H Handle.screen) : SameTop s t :=
  ht.frame _ hH

theorem Restyles.sameTop (ht : Restyles (· = h) s t) (hh : h ≠ Handle.screen) : SameTop s t :=
  ht.frame _ hh.symm

theorem SameTop.foldl {α : Type} {f : Screen → α → Screen} {as : List α}
    (hf : ∀ s, ∀ a ∈ as, SameTop s (f s a)) (s : Screen) : SameTop s (as.foldl f s) := by
  induction as generalizing s with
  | nil => exact SameTop.refl s
  | cons a as ih =>
    exact (hf s a List.mem_cons_self).trans
      (ih (fun s b hb => hf s b (List.mem_cons_of_mem _ hb)) (f s a))

theorem WellFormed.ne_top (hs : s.WellFormed) {kind : WidgetKind} (hk : s.kind? h = some kind)
    (hn : kind ≠ .screen) : h ≠ Handle.screen := by
  rintro rfl
  rw [hs.top] at hk
  exact hn (Option.some.inj hk).symm

/-- Nothing contains the screen. -/
theorem Sound.child_ne_top (hs : s.Sound) {p : Handle} (hc : h ∈ s.children p) :
    h ≠ Handle.screen := by
  rintro rfl
  rw [hs.mem_children_iff, hs.screen_parent?] at hc
  cases hc

theorem Sound.create_sameTop (hs : s.Sound) {kind : WidgetKind} {parent : Handle}
    (hc : s.create kind parent = (h, t)) : h ≠ Handle.screen ∧ SameTop s t := by
  have hne := hs.create_ne kind parent hs.screen_live
  have hw := hs.widget?_create kind parent Handle.screen
  rw [if_neg hne] at hw
  rw [hc] at hne hw
  exact ⟨hne.symm, hw⟩

end Screen

namespace Navigation

open Screen (SameTop)

variable {n m : Navigation} {s t : Screen} {h : Handle} {gi : Nat}

/-! ## New pages, groups, tiles and dots -/

theorem addPage_sameTop (hs : s.Sound) {id : String} {size : Size}
    (he : n.addPage s id size = (h, m, t)) : SameTop s t := by
  unfold addPage at he
  split at he
  next k s₁ hc =>
  cases he
  obtain ⟨hne, htop⟩ := hs.create_sameTop hc
  exact ((htop.trans ((Screen.setSize_restyles _ _ _ _).sameTop hne)).trans
    ((Screen.setPos_restyles _ _ _ _).sameTop hne)).trans
    ((Screen.applyStyles_restyles _ _ _).sameTop hne)

theorem addGroup_sameTop (hs : s.Sound) {id defaultPage : String} {orientation : Orientation}
    {indicator : Indicator} {size : Size}
    (he : n.addGroup s id defaultPage orientation indicator size = (gi, m, t)) : SameTop s t := by
  unfold addGroup at he
  split at he
  next k s₁ hc =>
  cases he
  obtain ⟨hne, htop⟩ := hs.create_sameTop hc
  exact ((((htop.trans ((Screen.setSize_restyles _ _ _ _).sameTop hne)).trans
    ((Screen.setPos_restyles _ _ _ _).sameTop hne)).trans
    ((Screen.applyStyle_restyles _ _ _).sameTop hne)).trans
    ((Screen.configure_restyles _ _ _).sameTop hne)).trans
    ((Screen.configure_restyles _ _ _).sameTop hne)

theorem addTile?_sameTop (hs : s.WellFormed) (hn : n.WellFormed s) {page : String} {size : Size}
    (he : n.addTile? s gi page size = some (h, m, t)) : SameTop s t := by
  unfold addTile? at he
  obtain ⟨g, hg, he⟩ := Option.map_eq_some_iff.mp he
  extract_lets place at he
  split at he
  next k s₁ hc =>
  extract_lets s₂ s₃ s₄ s₅ at he
  simp only [Prod.mk.injEq] at he
  rw [← he.2.2]
  obtain ⟨hne, htop⟩ := hs.create_sameTop hc
  have hview : g.view ≠ Handle.screen :=
    hs.ne_top (hn.view g (List.mem_of_getElem? hg)) fun h => by cases h
  have hplace : SameTop s₂ s₃ := by
    unfold s₃
    split
    · exact (Screen.setPos_restyles _ _ _ _).sameTop hne
    · exact (Screen.setPos_restyles _ _ _ _).sameTop hne
  have hactive : SameTop s₄ s₅ := by
    unfold s₅
    split
    · exact (Screen.setActiveTile_restyles _ _ _).sameTop hview
    · exact SameTop.refl _
  exact (((htop.trans ((Screen.setSize_restyles _ _ _ _).sameTop hne)).trans hplace).trans
    ((Screen.applyStyle_restyles _ _ _).sameTop hne)).trans hactive

theorem addDot_sameTop (hs : s.Sound) (horizontal : Bool) (row : Handle) (i : Nat) :
    SameTop s (addDot horizontal row s i) := by
  unfold addDot
  split
  next h s₁ hc =>
  extract_lets s₂ along across s₃
  obtain ⟨hne, htop⟩ := hs.create_sameTop hc
  have hplace : SameTop s₂ s₃ := by
    unfold s₃
    split
    · exact (Screen.setPos_restyles _ _ _ _).sameTop hne
    · exact (Screen.setPos_restyles _ _ _ _).sameTop hne
  exact ((htop.trans ((Screen.setSize_restyles _ _ _ _).sameTop hne)).trans hplace).trans
    ((Screen.applyStyles_restyles _ _ _).sameTop hne)

theorem addDots_sameTop (hs : s.WellFormed) (horizontal : Bool) {row : Handle}
    (hrow : s.kind? row = some .indicator) (is : List Nat) :
    SameTop s (is.foldl (addDot horizontal row) s) := by
  induction is generalizing s with
  | nil => exact SameTop.refl s
  | cons i is ih =>
    have hp := addDot_preserves hs horizontal hrow i
    exact (addDot_sameTop hs.toSound horizontal row i).trans
      (ih hp.wellFormed (hp.retains.kind _ _ hrow))

theorem finishGroup_sameTop (hs : s.WellFormed) (he : n.finishGroup s gi = (m, t)) :
    SameTop s t := by
  unfold finishGroup at he
  split at he
  · cases he
    exact SameTop.refl s
  · next g hg =>
    split at he
    · cases he
      exact SameTop.refl s
    · extract_lets count horizontal at he
      split at he
      next row s₁ hc =>
      extract_lets s₂ s₃ s₄ s₅ at he
      rw [← show s₅ = t from congrArg Prod.snd he]
      obtain ⟨hne, htop⟩ := hs.create_sameTop hc
      have hadd : s.Adds row .indicator s₁ := hs.adds_create hs.top_isContainer hc
      have hlooks : Screen.Restyles (· = row) s₁ s₃ := by
        refine (Screen.applyStyles_restyles s₁ row [.bgOpacity 0, .borderWidth 0]).trans ?_
        show Screen.Restyles (· = row) s₂ s₃
        unfold s₃
        split
        · exact (Screen.setSize_restyles _ row _ _).trans (Screen.align_restyles _ row _ _)
        · exact (Screen.setSize_restyles _ row _ _).trans (Screen.align_restyles _ row _ _)
      have hraise : SameTop s₃ s₄ := Screen.widget?_raise s₃ row _
      have hadd := hadd.restyle hlooks
      have hadd := hadd.preserve (hadd.preserves.wellFormed.preserves_raise row)
      exact ((htop.trans (hlooks.sameTop hne)).trans hraise).trans
        (addDots_sameTop hadd.preserves.wellFormed _ hadd.kind? (List.range count))

theorem keyboard_sameTop {page : Handle} {isNew : Bool} (hs : s.Sound)
    (he : n.keyboard s page = ((h, isNew), m, t)) : SameTop s t := by
  unfold Navigation.keyboard at he
  split at he
  · cases he
    exact SameTop.refl s
  · extract_lets size at he
    split at he
    next k' s₁ hc =>
    cases he
    obtain ⟨hne, htop⟩ := hs.create_sameTop hc
    exact ((htop.trans (Screen.sameTop_modify hne _)).trans (Screen.sameTop_modify hne _)).trans
      (Screen.sameTop_modify hne _)

/-! ## Showing -/

theorem setHiddens_sameTop {es : List (Handle × Bool)} (he : ∀ e ∈ es, e.1 ≠ Handle.screen)
    (s : Screen) : SameTop s (s.setHiddens es) :=
  SameTop.foldl (fun _ e hm => Screen.sameTop_modify (he e hm) _) s

theorem WellFormed.flagged_ne_top (hs : s.WellFormed) (hn : n.WellFormed s)
    (pages groups : Nat → Bool) {e : Handle × Bool}
    (he : e ∈ n.pageFlags pages ∨ e ∈ n.groupFlags groups ∨ e ∈ n.keyboardFlags) :
    e.1 ≠ Handle.screen := by
  obtain ⟨kind, hf⟩ := (n.flagged_iff pages groups e).mpr he
  obtain ⟨hk, hnav⟩ := hn.flagged_kind hf
  exact hs.ne_top hk fun h => by rw [h] at hnav; cases hnav

theorem highlight_sameTop (hs : s.Sound) (g : PageGroup) (i : Nat) :
    SameTop s (g.highlight s i) := by
  unfold PageGroup.highlight
  split
  · next d _ =>
    refine SameTop.foldl (fun s dot hdot => ?_) s
    have hchild := List.mem_of_getElem? (List.mem_zipIdx_iff_getElem?.mp hdot)
    exact (Screen.applyStyle_restyles s dot.1 _).sameTop (hs.child_ne_top hchild)
  · exact SameTop.refl s

theorem showPage_sameTop (hs : s.WellFormed) (hn : n.WellFormed s) (i : Nat) :
    SameTop s (n.showPage s i).2 := by
  rw [showPage, hideGroups_eq, hideKeyboards_eq, hidePages_eq, setHiddens_append,
    setHiddens_append]
  refine setHiddens_sameTop (fun e he => hn.flagged_ne_top hs (fun j => decide (j ≠ i))
    (fun _ => true) ?_) s
  simp only [List.mem_append] at he
  tauto

theorem showTile_sameTop (hs : s.WellFormed) (hn : n.WellFormed s) (gi pi : Nat) :
    SameTop s (n.showTile s gi pi).2 := by
  unfold showTile
  extract_lets s₁ s₂
  have hscreen : s₁ = s.setHiddens (n.pageFlags (fun _ => true) ++
      (n.groupFlags (fun j => decide (j ≠ gi)) ++ n.keyboardFlags)) := by
    unfold s₁
    rw [hidePages_eq, hideGroups_eq, hideKeyboards_eq, setHiddens_append, setHiddens_append]
  have hflags (e : Handle × Bool) : e ∈ n.pageFlags (fun _ => true) ++
      (n.groupFlags (fun j => decide (j ≠ gi)) ++ n.keyboardFlags) ↔
        e ∈ n.pageFlags (fun _ => true) ∨ e ∈ n.groupFlags (fun j => decide (j ≠ gi)) ∨
          e ∈ n.keyboardFlags := by
    simp only [List.mem_append]
  obtain ⟨-, hsteers⟩ := hn.flags (fun _ => true) (fun j => decide (j ≠ gi)) _ hflags
  have htop : SameTop s s₁ := by
    rw [hscreen]
    exact setHiddens_sameTop (fun e he => hn.flagged_ne_top hs _ _ ((hflags e).mp he)) s
  rw [← hscreen] at hsteers
  refine htop.trans ?_
  show SameTop s₁ s₂
  unfold s₂
  split
  · next g hg =>
    have hview : g.view ≠ Handle.screen :=
      hs.ne_top (hn.view g (List.mem_of_getElem? hg)) fun h => by cases h
    extract_lets s₃
    have hactive : Screen.Restyles (· = g.view) s₁ s₃ := by
      unfold s₃
      split
      · exact Screen.setActiveTile_restyles _ _ _
      · exact Screen.Restyles.refl _
    exact (hactive.sameTop hview).trans
      (highlight_sameTop ((hs.toSound.touch hsteers).touch hactive) g pi)
  · exact SameTop.refl s₁

theorem display_sameTop (hs : s.WellFormed) (hn : n.WellFormed s) {path : String}
    (hd : n.display s path = .ok (m, t)) : SameTop s t := by
  unfold display at hd
  cases hg : n.goal path with
  | error e =>
    rw [hg] at hd
    cases hd
  | ok goal =>
    rw [hg] at hd
    have he : n.showGoal s goal = (m, t) := Except.ok.inj hd
    cases goal with
    | page i =>
      have htop := showPage_sameTop hs hn i
      rwa [show n.showPage s i = (m, t) from he] at htop
    | tile gi pi =>
      have htop := showTile_sameTop hs hn gi pi
      rwa [show n.showTile s gi pi = (m, t) from he] at htop

theorem swiped_sameTop (hs : s.Sound) (n : Navigation) (gi : Nat) :
    SameTop s (n.swiped s gi).2 := by
  unfold swiped
  split
  · exact SameTop.refl s
  · exact highlight_sameTop hs _ _

end Navigation
end ScreenMarkup
