import ScreenMarkup.Proofs.Navigation.Paint
import ScreenMarkup.Proofs.Screen.Leaving

/-!
# Groups in step

A group knows three times which of its pages is the current one: by the
position it keeps, by the active tile of its view, and by the dot that stands
out. Showing and swiping keep the three in step, in the group that is shown
and in all others.
-/

set_option autoImplicit false

namespace ScreenMarkup

namespace Screen

variable {s : Screen} {h : Handle}

theorem activeTile?_modify {f : Widget → Widget} (hf : ∀ w, (f w).activeTile = w.activeTile)
    (k : Handle) : (s.modify h f).activeTile? k = s.activeTile? k := by
  rw [activeTile?, activeTile?, widget?_modify]
  split
  · next hk =>
    rw [hk]
    cases s.widget? h with
    | none => rfl
    | some w => exact hf w
  · rfl

theorem activeTile?_setActiveTile (hl : s.isLive h = true) (tile k : Handle) :
    (s.setActiveTile h tile).activeTile? k = if k = h then some tile else s.activeTile? k := by
  obtain ⟨w, hw⟩ := isLive_iff.mp hl
  rw [activeTile?, activeTile?, setActiveTile, widget?_modify]
  split
  · rw [hw]
    rfl
  · rfl

theorem activeTile?_setHiddens (es : List (Handle × Bool)) (s : Screen) (k : Handle) :
    (s.setHiddens es).activeTile? k = s.activeTile? k := by
  induction es generalizing s with
  | nil => rfl
  | cons e es ih =>
    exact (ih (s.setHidden e.1 e.2)).trans
      (activeTile?_modify (f := ({ · with hidden := e.2 })) (fun _ => rfl) k)

end Screen

namespace PageGroup

variable {g : PageGroup} {s t : Screen} {d k : Handle} {i : Nat} {p : Page}

/-- The tiles of the group stand in its view. It has dots if it asked for them and has more than one
page, and then one for each page. -/
structure Built (g : PageGroup) (s : Screen) : Prop where
  tiles : s.children g.view = g.pages.map (·.widget)
  dotted : g.dots.isSome = true ↔ g.indicator = .dots ∧ 1 < g.pages.length
  dots : ∀ d, g.dots = some d → (s.children d).length = g.pages.length

/-- The current page of the group is the active tile of its view, and its dot stands out. -/
structure InStep (g : PageGroup) (s : Screen) : Prop extends Built g s where
  active : g.pages ≠ [] →
    ∃ p, g.pages[g.current]? = some p ∧ s.activeTile? g.view = some p.widget
  colored : ∀ d, g.dots = some d → ∀ i k, (s.children d)[i]? = some k →
    (s.style k).bgColor = some (dotColor i g.current)

theorem dotColor_eq_active {active : Nat} : dotColor i active = activeColor ↔ i = active := by
  unfold dotColor
  split
  · next hi => exact iff_of_true rfl hi
  · next hi => exact iff_of_false (by decide) hi

theorem Built.congr (hg : g.Built s) (hview : t.children g.view = s.children g.view)
    (hrow : ∀ d, g.dots = some d → t.children d = s.children d) : g.Built t where
  tiles := hview.trans hg.tiles
  dotted := hg.dotted
  dots d hd := hrow d hd ▸ hg.dots d hd

theorem Built.withCurrent (hg : g.Built s) (i : Nat) :
    ({ g with current := i } : PageGroup).Built s :=
  ⟨hg.tiles, hg.dotted, hg.dots⟩

theorem InStep.congr (hg : g.InStep s) (hview : t.children g.view = s.children g.view)
    (hrow : ∀ d, g.dots = some d → t.children d = s.children d)
    (hactive : t.activeTile? g.view = s.activeTile? g.view)
    (hstyle : ∀ d, g.dots = some d → ∀ k ∈ s.children d, t.style k = s.style k) : g.InStep t where
  toBuilt := hg.toBuilt.congr hview hrow
  active hp := by
    rw [hactive]
    exact hg.active hp
  colored d hd i k hk := by
    rw [hrow d hd] at hk
    rw [hstyle d hd k (List.mem_of_getElem? hk)]
    exact hg.colored d hd i k hk

/-- What is left alone with its group keeps it in step. -/
theorem InStep.leave {H : Handle → Prop} (hg : g.InStep s) (hs : s.Sound) (hl : s.Leaves H t)
    (hview : s.isLive g.view = true ∧ ¬ H g.view)
    (hrow : ∀ d, g.dots = some d → (s.isLive d = true ∧ ¬ H d) ∧ ∀ k ∈ s.children d, ¬ H k) :
    g.InStep t :=
  hg.congr (hl.children _ hview.1 hview.2)
    (fun d hd => hl.children d (hrow d hd).1.1 (hrow d hd).1.2) (hl.activeTile? hview.1 hview.2)
    fun d hd k hk => hl.style (hs.children_live hk) ((hrow d hd).2 k hk)

/-! ## Dots -/

theorem highlight_shape (g : PageGroup) (s : Screen) (active : Nat) :
    (g.highlight s active).shape = s.shape :=
  (Navigation.highlight_restyles g s active).shape

theorem activeTile?_highlight (g : PageGroup) (s : Screen) (active : Nat) (k : Handle) :
    (g.highlight s active).activeTile? k = s.activeTile? k := by
  have hrun (dots : List (Handle × Nat)) (s : Screen) :
      (dots.foldl (fun s dot => s.applyStyle dot.1 (.bgColor (dotColor dot.2 active)))
        s).activeTile? k = s.activeTile? k := by
    induction dots generalizing s with
    | nil => rfl
    | cons dot dots ih =>
      exact (ih _).trans (Screen.activeTile?_modify
        (f := (·.applyStyle (.bgColor (dotColor dot.2 active)))) (fun _ => rfl) k)
  unfold highlight
  split
  · exact hrun _ s
  · rfl

theorem bgColor_foldl_dots {dots : List (Handle × Nat)} (hn : (dots.map (·.1)).Nodup)
    (hl : ∀ dot ∈ dots, s.isLive dot.1 = true) (hk : (k, i) ∈ dots) (active : Nat) :
    ((dots.foldl (fun s dot => s.applyStyle dot.1 (.bgColor (dotColor dot.2 active))) s).style
      k).bgColor = some (dotColor i active) := by
  induction dots generalizing s with
  | nil => cases hk
  | cons dot dots ih =>
    obtain ⟨hout, hn⟩ := List.nodup_cons.mp hn
    rw [List.foldl_cons]
    rcases List.mem_cons.mp hk with rfl | hk
    · -- the dots that follow are others
      have hrest : ∀ (dots : List (Handle × Nat)) (s : Screen), k ∉ dots.map (·.1) →
          (dots.foldl (fun s dot => s.applyStyle dot.1 (.bgColor (dotColor dot.2 active)))
            s).style k = s.style k := by
        intro dots
        induction dots with
        | nil => exact fun _ _ => rfl
        | cons dot dots ih =>
          intro s hk
          rw [List.map_cons, List.mem_cons, not_or] at hk
          exact (ih _ hk.2).trans (Screen.style_of_ne hk.1 _)
      rw [hrest dots _ hout, Screen.style_applyStyle (hl _ List.mem_cons_self)]
      rfl
    · refine ih hn (fun dot' hdot' => ?_) hk
      rw [Screen.isLive_applyStyle]
      exact hl dot' (List.mem_cons_of_mem _ hdot')

theorem bgColor_highlight (hs : s.Sound) (hd : g.dots = some d) (hk : (s.children d)[i]? = some k)
    (active : Nat) :
    ((g.highlight s active).style k).bgColor = some (dotColor i active) := by
  unfold highlight
  rw [hd]
  refine bgColor_foldl_dots ?_ (fun dot hdot => ?_) (List.mem_zipIdx_iff_getElem?.mpr hk) active
  · rw [List.zipIdx_map_fst]
    exact hs.children_nodup d
  · exact hs.children_live (List.mem_of_getElem? (List.mem_zipIdx_iff_getElem?.mp hdot))

/-- A group whose view has turned to a page is in step again when the dot of the page stands out. -/
theorem Built.turn (hg : g.Built s) (hs : s.Sound) (hp : g.pages[i]? = some p)
    (ha : s.activeTile? g.view = some p.widget) :
    ({ g with current := i } : PageGroup).InStep (g.highlight s i) where
  toBuilt :=
    have hchildren := Screen.children_congr (g.highlight_shape s i)
    (hg.congr (hchildren g.view) fun d _ => hchildren d).withCurrent i
  active _ := ⟨p, hp, (g.activeTile?_highlight s i g.view).trans ha⟩
  colored d hd j k hk := by
    rw [Screen.children_congr (g.highlight_shape s i)] at hk
    exact bgColor_highlight hs hd hk i

end PageGroup

namespace Navigation

variable {n m : Navigation} {s t : Screen} {g g' : PageGroup} {gi j : Nat} {p : Page}

def InStep (n : Navigation) (s : Screen) : Prop := ∀ g ∈ n.groups, g.InStep s

/-! ## Other groups -/

theorem getElem?_modifyGroup {f : PageGroup → PageGroup} (hg : n.groups[gi]? = some g)
    (hj : (n.modifyGroup gi f).groups[j]? = some g') :
    (j = gi ∧ g' = f g) ∨ (j ≠ gi ∧ n.groups[j]? = some g') := by
  have hj : (n.groups.modify gi f)[j]? = some g' := hj
  rw [List.getElem?_modify] at hj
  by_cases he : gi = j
  · subst he
    rw [hg, Option.map_eq_map, Option.map_some, if_pos rfl] at hj
    exact .inl ⟨rfl, (Option.some.inj hj).symm⟩
  · simp only [he, if_false] at hj
    exact .inr ⟨Ne.symm he, by simpa using hj⟩

/-- The dots of two groups are different ones. -/
theorem WellFormed.dots_apart (hn : n.WellFormed s) (hs : s.Sound) (hg : n.groups[gi]? = some g)
    (hg' : n.groups[j]? = some g') (hj : j ≠ gi) {d d' : Handle} (hd : g.dots = some d)
    (hd' : g'.dots = some d') : ∀ k ∈ s.children d', k ∉ s.children d := by
  intro k hk' hk
  have hrow : d = d' := Option.some.inj
    ((hs.mem_children_iff.mp hk).symm.trans (hs.mem_children_iff.mp hk'))
  exact hj (index_unique hn.dotsNodup hg' hg hd' (hrow ▸ hd))

/-- When a group turns to a page and its dots follow, all groups are in step. -/
theorem InStep.turn (hi : n.InStep s) (hn : n.WellFormed s) (hs : s.Sound)
    (hg : n.groups[gi]? = some g) {i : Nat} (hp : g.pages[i]? = some p) (ht : t.Sound)
    (hshape : t.shape = s.shape) (hstyle : ∀ k, t.style k = s.style k)
    (hactive : ∀ k, t.activeTile? k = if k = g.view then some p.widget else s.activeTile? k) :
    (n.modifyGroup gi ({ · with current := i })).InStep (g.highlight t i) := by
  have hchildren (k : Handle) : t.children k = s.children k := Screen.children_congr hshape k
  intro g' hg'
  obtain ⟨j, hj⟩ := List.mem_iff_getElem?.mp hg'
  rcases getElem?_modifyGroup hg hj with ⟨rfl, rfl⟩ | ⟨hne, hold⟩
  · have hbuilt : g.Built t := (hi g (List.mem_of_getElem? hg)).toBuilt.congr (hchildren _)
      fun d _ => hchildren d
    exact hbuilt.turn ht hp ((hactive g.view).trans (if_pos rfl))
  · have hview : g'.view ≠ g.view := fun he => hne (hn.view_unique hold hg he)
    have hlit (k : Handle) : (g.highlight t i).children k = s.children k :=
      (Screen.children_congr (g.highlight_shape t i) k).trans (hchildren k)
    refine (hi g' (List.mem_of_getElem? hold)).congr (hlit _) (fun d _ => hlit d) ?_
      fun d' hd' k hk => ?_
    · rw [g.activeTile?_highlight, hactive, if_neg hview]
    · rw [style_highlight (fun d hd hk' => ?_), hstyle]
      rw [hchildren] at hk'
      exact hn.dots_apart hs hg hold hne hd hd' k hk hk'

/-! ## Showing -/

theorem InStep.hide (hi : n.InStep s) (es : List (Handle × Bool)) : n.InStep (s.setHiddens es) :=
  fun g hg => (hi g hg).congr (Screen.children_congr (setHiddens_shape es s) _)
    (fun d _ => Screen.children_congr (setHiddens_shape es s) d)
    (Screen.activeTile?_setHiddens es s g.view) fun _ _ k _ => style_setHiddens es s k

theorem showPage_inStep (hi : n.InStep s) (i : Nat) :
    (n.showPage s i).1.InStep (n.showPage s i).2 := by
  have hscreen : (n.showPage s i).2 = s.setHiddens (n.groupFlags (fun _ => true) ++
      (n.keyboardFlags ++ n.pageFlags fun j => decide (j ≠ i))) := by
    rw [showPage, hideGroups_eq, hideKeyboards_eq, hidePages_eq, setHiddens_append,
      setHiddens_append]
  rw [hscreen]
  exact hi.hide _

theorem showTile_eq (hg : n.groups[gi]? = some g) {pi : Nat} (hp : g.pages[pi]? = some p) :
    n.showTile s gi pi =
      ({ n.modifyGroup gi ({ · with current := pi }) with
          currentGroup := some gi, currentPage := none },
        g.highlight ((s.setHiddens (n.pageFlags (fun _ => true) ++
          (n.groupFlags (fun j => decide (j ≠ gi)) ++ n.keyboardFlags))).setActiveTile g.view
            p.widget) pi) := by
  simp only [showTile, hg, hp, hidePages_eq, hideGroups_eq, hideKeyboards_eq, setHiddens_append,
    List.append_assoc]

theorem showTile_inStep (hi : n.InStep s) (hn : n.WellFormed s) (hs : s.Sound)
    (hg : n.groups[gi]? = some g) {pi : Nat} (hp : g.pages[pi]? = some p) :
    (n.showTile s gi pi).1.InStep (n.showTile s gi pi).2 := by
  rw [showTile_eq hg hp]
  generalize hes : n.pageFlags (fun _ => true) ++
    (n.groupFlags (fun j => decide (j ≠ gi)) ++ n.keyboardFlags) = es
  have hsteers : s.Steers (s.setHiddens es) :=
    (hn.flags (fun _ => true) (fun j => decide (j ≠ gi)) es fun e => by
      simp only [← hes, List.mem_append]).2
  have hlive : (s.setHiddens es).isLive g.view = true := by
    rw [hsteers.isLive]
    exact Screen.isLive_of_kind? (hn.view g (List.mem_of_getElem? hg))
  have hsound : (s.setHiddens es).Sound := hs.touch hsteers
  refine hi.turn hn hs hg hp (hsound.touch (Screen.setActiveTile_restyles _ g.view p.widget))
    ((Screen.modify_shape _).trans (setHiddens_shape es s)) (fun k => ?_) fun k => ?_
  · exact (Screen.style_modify (f := ({ · with activeTile := some p.widget })) (fun _ => rfl)
      k).trans (style_setHiddens es s k)
  · rw [Screen.activeTile?_setActiveTile hlive, Screen.activeTile?_setHiddens]

/-- A goal is a page that is there, or a page of a group. -/
theorem follow_tile {k pi : Nat} {path : String} (hf : n.follow k path = .ok (.tile gi pi)) :
    ∃ g p, n.groups[gi]? = some g ∧ g.pages[pi]? = some p := by
  have hdirect {path : String} (hd : n.direct path = .ok (.tile gi pi)) :
      ∃ g p, n.groups[gi]? = some g ∧ g.pages[pi]? = some p := by
    unfold direct at hd
    split at hd
    · unfold tileGoal at hd
      split at hd
      · cases hd
      · next gi' _ =>
        split at hd
        · cases hd
        · next hpi =>
          cases hd
          obtain ⟨g, hg, hpi⟩ := Option.bind_eq_some_iff.mp hpi
          obtain ⟨hlt, -⟩ := List.findIdx?_eq_some_iff_findIdx_eq.mp hpi
          exact ⟨g, g.pages[pi], hg, List.getElem?_eq_getElem hlt⟩
    · unfold pageGoal at hd
      split at hd <;> cases hd
  induction k generalizing path with
  | zero => exact hdirect hf
  | succ k ih =>
    unfold follow at hf
    split at hf
    · exact ih hf
    · exact hdirect hf

theorem display_inStep (hi : n.InStep s) (hn : n.WellFormed s) (hs : s.Sound) {path : String}
    (hd : n.display s path = .ok (m, t)) : m.InStep t := by
  unfold display at hd
  cases hg : n.goal path with
  | error e =>
    rw [hg] at hd
    cases hd
  | ok goal =>
    rw [hg] at hd
    have he : n.showGoal s goal = (m, t) := Except.ok.inj hd
    cases goal with
    | page i =>
      have hstep := showPage_inStep hi i
      rwa [show n.showPage s i = (m, t) from he] at hstep
    | tile gi pi =>
      obtain ⟨g, p, hgroup, hp⟩ := follow_tile hg
      have hstep := showTile_inStep hi hn hs hgroup hp
      rwa [show n.showTile s gi pi = (m, t) from he] at hstep

/-! ## Swiping -/

/-- The position of a tile in its group. -/
theorem findIdx?_tile (hn : (g.pages.map (·.widget)).Nodup) {i : Nat}
    (hp : g.pages[i]? = some p) :
    (g.pages.findIdx? fun q => some q.widget = some p.widget) = some i := by
  obtain ⟨hi, rfl⟩ := List.getElem?_eq_some_iff.mp hp
  refine List.findIdx?_eq_some_iff_getElem.mpr ⟨hi, by simp, fun j hj => ?_⟩
  have hne := List.pairwise_iff_getElem.mp (List.pairwise_map.mp hn) j i (Nat.lt_trans hj hi) hi hj
  simpa using hne

theorem swiped_eq (hg : n.groups[gi]? = some g) (hb : g.Built s) (hs : s.Sound) {i : Nat}
    (hp : g.pages[i]? = some p) (ha : s.activeTile? g.view = some p.widget) :
    n.swiped s gi = (n.modifyGroup gi ({ · with current := i }), g.highlight s i) := by
  have hnodup : (g.pages.map (·.widget)).Nodup := hb.tiles ▸ hs.children_nodup g.view
  simp only [swiped, hg, ha, findIdx?_tile hnodup hp, Option.getD_some]

/-- The event of a view that was turned to a page puts its group in step again. -/
theorem swiped_turned (hi : n.InStep s) (hn : n.WellFormed s) (hs : s.Sound)
    (hg : n.groups[gi]? = some g) {i : Nat} (hp : g.pages[i]? = some p) :
    (n.swiped (s.setActiveTile g.view p.widget) gi).1.InStep
      (n.swiped (s.setActiveTile g.view p.widget) gi).2 := by
  have hlive := Screen.isLive_of_kind? (hn.view g (List.mem_of_getElem? hg))
  have hturned := Screen.activeTile?_setActiveTile hlive p.widget
  have hshape : (s.setActiveTile g.view p.widget).shape = s.shape := Screen.modify_shape _
  have hsound := hs.touch (Screen.setActiveTile_restyles s g.view p.widget)
  have hbuilt : g.Built (s.setActiveTile g.view p.widget) :=
    (hi g (List.mem_of_getElem? hg)).toBuilt.congr (Screen.children_congr hshape _)
      fun d _ => Screen.children_congr hshape d
  rw [swiped_eq hg hbuilt hsound hp ((hturned g.view).trans (if_pos rfl))]
  exact hi.turn hn hs hg hp hsound hshape (fun k => Screen.style_modify
    (f := ({ · with activeTile := some p.widget })) (fun _ => rfl) k) hturned

/-- An event of a view that was not turned leaves all groups in step. -/
theorem swiped_inStep (hi : n.InStep s) (hn : n.WellFormed s) (hs : s.Sound) (gi : Nat) :
    (n.swiped s gi).1.InStep (n.swiped s gi).2 := by
  cases hg : n.groups[gi]? with
  | none =>
    rw [show n.swiped s gi = (n, s) by simp [swiped, hg]]
    exact hi
  | some g =>
    have hstep := hi g (List.mem_of_getElem? hg)
    cases hpages : g.pages with
    | nil =>
      -- a group without pages has no dots, and the first position for its current one
      have hdots : g.dots = none := by
        have hnone := mt hstep.dotted.mp (by simp [hpages])
        simpa using hnone
      have hswiped : n.swiped s gi = (n.modifyGroup gi ({ · with current := 0 }), s) := by
        simp [swiped, hg, hpages, PageGroup.highlight, hdots]
      rw [hswiped]
      intro g' hg'
      obtain ⟨j, hj⟩ := List.mem_iff_getElem?.mp hg'
      rcases getElem?_modifyGroup hg hj with ⟨rfl, rfl⟩ | ⟨-, hold⟩
      · exact
          { toBuilt := hstep.toBuilt.withCurrent 0
            active := fun hne => absurd hpages hne
            colored := fun d hd => by
              have hd : g.dots = some d := hd
              rw [hdots] at hd
              cases hd }
      · exact hi g' (List.mem_of_getElem? hold)
    | cons q qs =>
      obtain ⟨p, hp, ha⟩ := hstep.active (by simp [hpages])
      rw [swiped_eq hg hstep.toBuilt hs hp ha]
      refine hi.turn hn hs hg hp hs rfl (fun _ => rfl) fun k => ?_
      split
      · next hk => rw [hk, ha]
      · rfl

end Navigation
end ScreenMarkup
