import Mathlib.Data.List.Nodup
import ScreenMarkup.Proofs.Navigation.Construction
import ScreenMarkup.Proofs.Screen.Later

/-!
# Pages, tiles and keyboards in their places

A navigation is anchored on a screen when its pages and views are there, its
tiles stand in the views of their groups, and its keyboards stand on the pages
that they belong to, one on each. Laying out and showing keep it so.
-/

set_option autoImplicit false

namespace ScreenMarkup.Navigation

open Screen (Later Stands)

variable {n m : Navigation} {s t u : Screen} {h k page : Handle} {gi : Nat}

structure Anchored (s : Screen) (n : Navigation) : Prop where
  page : ∀ p ∈ n.pages, s.isLive p.widget = true
  view : ∀ g ∈ n.groups, s.isLive g.view = true
  tile : ∀ g ∈ n.groups, ∀ p ∈ g.pages, s.parent? p.widget = some g.view
  keyboard : ∀ k ∈ n.keyboards, n.isPage k.1 = true ∧ s.parent? k.2 = some k.1
  single : (n.keyboards.map (·.1)).Nodup

theorem Anchored.empty (s : Screen) : ({} : Navigation).Anchored s := by
  constructor <;> simp

theorem Anchored.stands (hn : n.Anchored s) (hs : s.Sound) (ht : Stands s t) : n.Anchored t where
  page p hp := ht.live _ (hn.page p hp)
  view g hg := ht.live _ (hn.view g hg)
  tile g hg p hp := by
    have hp := hn.tile g hg p hp
    rw [ht.parent _ (hs.live_of_parent? hp), hp]
  keyboard k hk := by
    obtain ⟨hpage, hp⟩ := hn.keyboard k hk
    exact ⟨hpage, by rw [ht.parent _ (hs.live_of_parent? hp), hp]⟩
  single := hn.single

/-- A step of the navigation and the screen together. The views keep their positions. -/
structure Moves (n : Navigation) (s : Screen) (m : Navigation) (t : Screen) : Prop where
  screen : Later s t
  views : n.groups.map (·.view) <+: m.groups.map (·.view)
  keyboards : n.keyboards <+: m.keyboards
  anchored : s.Sound → n.Anchored s → m.Anchored t

theorem Moves.trans {o : Navigation} (h₁ : Moves n s m t) (h₂ : Moves m t o u) :
    Moves n s o u where
  screen := h₁.screen.trans h₂.screen
  views := h₁.views.trans h₂.views
  keyboards := h₁.keyboards.trans h₂.keyboards
  anchored hs hn := h₂.anchored (h₁.screen hs).sound (h₁.anchored hs hn)

/-! ## Showing -/

/-- Which pages, tiles and keyboards there are, whatever is shown. -/
def frame (n : Navigation) : List Page × List (Handle × List Page) × List (Handle × Handle) :=
  (n.pages, n.groups.map fun g => (g.view, g.pages), n.keyboards)

theorem frame_group (hf : m.frame = n.frame) {g : PageGroup} (hg : g ∈ m.groups) :
    ∃ k ∈ n.groups, k.view = g.view ∧ k.pages = g.pages := by
  have hgroups : m.groups.map (fun g => (g.view, g.pages)) =
      n.groups.map fun g => (g.view, g.pages) := congrArg (fun f => f.2.1) hf
  obtain ⟨k, hk, he⟩ := List.mem_map.mp (hgroups ▸ List.mem_map_of_mem hg)
  exact ⟨k, hk, congrArg Prod.fst he, congrArg Prod.snd he⟩

theorem isPage_iff : n.isPage h = true ↔
    (∃ p ∈ n.pages, p.widget = h) ∨ ∃ g ∈ n.groups, ∃ p ∈ g.pages, p.widget = h := by
  simp [isPage]

theorem isPage_mono (hpages : n.pages ⊆ m.pages)
    (hgroups : ∀ g ∈ n.groups, ∃ k ∈ m.groups, g.pages ⊆ k.pages) (hp : n.isPage h = true) :
    m.isPage h = true := by
  rw [isPage_iff] at hp ⊢
  rcases hp with ⟨p, hp, he⟩ | ⟨g, hg, p, hp, he⟩
  · exact .inl ⟨p, hpages hp, he⟩
  · obtain ⟨k, hk, hgk⟩ := hgroups g hg
    exact .inr ⟨k, hk, p, hgk hp, he⟩

theorem Anchored.congr (hn : n.Anchored s) (hf : m.frame = n.frame) : m.Anchored s := by
  have hpages : m.pages = n.pages := congrArg (fun f => f.1) hf
  have hkeyboards : m.keyboards = n.keyboards := congrArg (fun f => f.2.2) hf
  refine ⟨hpages ▸ hn.page, fun g hg => ?_, fun g hg p hp => ?_, fun k hk => ?_,
    hkeyboards ▸ hn.single⟩
  · obtain ⟨k, hk, hview, -⟩ := frame_group hf hg
    exact hview ▸ hn.view k hk
  · obtain ⟨k, hk, hview, htiles⟩ := frame_group hf hg
    exact hview ▸ hn.tile k hk p (htiles ▸ hp)
  · refine (hn.keyboard k (hkeyboards ▸ hk)).imp_left (isPage_mono (hpages ▸ List.Subset.refl _)
      fun g hg => ?_)
    obtain ⟨k, hk, -, htiles⟩ := frame_group hf.symm hg
    exact ⟨k, hk, htiles ▸ List.Subset.refl _⟩

/-- What changes neither pages nor keyboards. -/
theorem moves_of_frame (hv : Later s t) (hf : m.frame = n.frame) : Moves n s m t where
  screen := hv
  views := by
    have hgroups := congrArg (fun f => f.2.1.map Prod.fst) hf
    simp only [frame, List.map_map] at hgroups
    exact hgroups ▸ List.prefix_refl _
  keyboards := by
    have hkeyboards : m.keyboards = n.keyboards := congrArg (fun f => f.2.2) hf
    exact hkeyboards ▸ List.prefix_refl _
  anchored hs hn := (hn.congr hf).stands hs (hv hs)

theorem Moves.refl (n : Navigation) (s : Screen) : Moves n s n s :=
  moves_of_frame (Later.refl s) rfl

theorem frame_modifyGroup {f : PageGroup → PageGroup}
    (hf : ∀ g, (f g).view = g.view ∧ (f g).pages = g.pages) (n : Navigation) (i : Nat) :
    (n.modifyGroup i f).frame = n.frame := by
  rcases n.modifyGroup_cases i f with he | ⟨gs₁, g, gs₂, hg, -, he⟩
  · rw [he]
  · rw [he]
    simp [frame, hg, hf]

theorem later_hideGroup (g : PageGroup) (s : Screen) (b : Bool) : Later s (g.setHidden s b) := by
  unfold PageGroup.setHidden
  extract_lets shown
  split
  · exact (Screen.later_modify s _ _).trans (Screen.later_modify shown _ _)
  · exact Screen.later_modify s _ _

theorem later_highlight (g : PageGroup) (s : Screen) (i : Nat) : Later s (g.highlight s i) := by
  unfold PageGroup.highlight
  split
  · exact Later.foldl (fun s _ => Screen.later_modify s _ _) _ s
  · exact Later.refl s

theorem later_hideKeyboards (n : Navigation) (s : Screen) : Later s (n.hideKeyboards s) :=
  Later.foldl (fun s _ => Screen.later_modify s _ _) _ s

theorem later_hidePages (n : Navigation) (s : Screen) (hidden : Nat → Bool) :
    Later s (n.hidePages s hidden) :=
  Later.foldl (fun s _ => Screen.later_modify s _ _) _ s

theorem later_hideGroups (n : Navigation) (s : Screen) (hidden : Nat → Bool) :
    Later s (n.hideGroups s hidden) :=
  Later.foldl (fun s (e : PageGroup × Nat) => later_hideGroup e.1 s (hidden e.2)) _ s

theorem showPage_moves (n : Navigation) (s : Screen) (i : Nat) :
    Moves n s (n.showPage s i).1 (n.showPage s i).2 := by
  have hgroups := later_hideGroups n s fun _ => true
  have hkeyboards := later_hideKeyboards n (n.hideGroups s fun _ => true)
  have hpages := later_hidePages n (n.hideKeyboards (n.hideGroups s fun _ => true)) fun j => j ≠ i
  exact moves_of_frame ((hgroups.trans hkeyboards).trans hpages) rfl

theorem showTile_moves (n : Navigation) (s : Screen) (gi pi : Nat) :
    Moves n s (n.showTile s gi pi).1 (n.showTile s gi pi).2 := by
  unfold showTile
  extract_lets hidden shown
  have hhidden : Later s hidden :=
    ((later_hidePages n s _).trans (later_hideGroups n _ _)).trans (later_hideKeyboards n _)
  have hshown : Later hidden shown := by
    unfold shown
    split
    · next g _ =>
      extract_lets active
      have hactive : Later hidden active := by
        unfold active
        split
        · exact Screen.later_modify hidden _ _
        · exact Later.refl hidden
      exact hactive.trans (later_highlight g active pi)
    · exact Later.refl hidden
  exact moves_of_frame (hhidden.trans hshown)
    (frame_modifyGroup (f := ({ · with current := pi })) (fun _ => ⟨rfl, rfl⟩) n gi)

theorem display_moves {path : String} (hd : n.display s path = .ok (m, t)) : Moves n s m t := by
  unfold display at hd
  cases hg : n.goal path with
  | error e =>
    rw [hg] at hd
    cases hd
  | ok goal =>
    rw [hg] at hd
    have he : n.showGoal s goal = (m, t) := Except.ok.inj hd
    cases goal with
    | page i =>
      have hmoves := n.showPage_moves s i
      rwa [show n.showPage s i = (m, t) from he] at hmoves
    | tile gi pi =>
      have hmoves := n.showTile_moves s gi pi
      rwa [show n.showTile s gi pi = (m, t) from he] at hmoves

theorem swiped_moves (n : Navigation) (s : Screen) (gi : Nat) :
    Moves n s (n.swiped s gi).1 (n.swiped s gi).2 := by
  unfold swiped
  split
  · exact Moves.refl n s
  · next g _ =>
    extract_lets active i
    exact moves_of_frame (later_highlight g s i)
      (frame_modifyGroup (f := ({ · with current := i })) (fun _ => ⟨rfl, rfl⟩) n gi)

/-! ## Laying out -/

theorem addPage_moves {id : String} {size : Size} (he : n.addPage s id size = (h, m, t)) :
    Moves n s m t := by
  unfold addPage at he
  split at he
  next k s₁ hc =>
  extract_lets s₂ s₃ at he
  simp only [Prod.mk.injEq] at he
  obtain ⟨rfl, rfl, rfl⟩ := he
  have hlooks : Later s₁ s₃ :=
    ((Screen.later_modify s₁ k _).trans (Screen.later_modify _ k _)).trans
      (Screen.later_applyStyles s₂ k _)
  have hmakes : s.Makes .page Handle.screen k s₃ := Screen.makes hc hlooks
  refine ⟨hmakes.later, List.prefix_refl _, List.prefix_refl _, fun hs hn => ?_⟩
  have hn := hn.stands hs (hmakes.later hs)
  refine ⟨fun p hp => ?_, hn.view, hn.tile, fun k hk => ?_, hn.single⟩
  · rcases List.mem_append.mp hp with hp | hp
    · exact hn.page p hp
    · rw [List.mem_singleton.mp hp]
      exact hmakes.live hs
  · exact (hn.keyboard k hk).imp_left (isPage_mono (List.subset_append_left _ _)
      fun g hg => ⟨g, hg, List.Subset.refl _⟩)

theorem addGroup_moves {id defaultPage : String} {orientation : Orientation}
    {indicator : Indicator} {size : Size}
    (he : n.addGroup s id defaultPage orientation indicator size = (gi, m, t)) :
    Moves n s m t := by
  unfold addGroup at he
  split at he
  next k s₁ hc =>
  extract_lets s₂ s₃ s₄ s₅ new at he
  simp only [Prod.mk.injEq] at he
  obtain ⟨rfl, rfl, rfl⟩ := he
  have hsize : Later s₁ s₂ := (Screen.later_modify s₁ k _).trans (Screen.later_modify _ k _)
  have hlooks : Later s₂ s₅ := ((Screen.later_modify s₂ k _).trans
    (Screen.later_modify s₃ k _)).trans (Screen.later_modify s₄ k _)
  have hmakes : s.Makes .tileView Handle.screen k s₅ := Screen.makes hc (hsize.trans hlooks)
  refine ⟨hmakes.later, ?_, List.prefix_refl _, fun hs hn => ?_⟩
  · show n.groups.map (·.view) <+: (n.groups ++ [new]).map (·.view)
    rw [List.map_append]
    exact List.prefix_append _ _
  have hn := hn.stands hs (hmakes.later hs)
  refine ⟨hn.page, fun k hk => ?_, fun k hk p hp => ?_, fun k hk => ?_, hn.single⟩
  · rcases List.mem_append.mp hk with hk | hk
    · exact hn.view k hk
    · rw [List.mem_singleton.mp hk]
      exact hmakes.live hs
  · rcases List.mem_append.mp hk with hk | hk
    · exact hn.tile k hk p hp
    · rw [List.mem_singleton.mp hk] at hp
      exact absurd hp List.not_mem_nil
  · obtain ⟨hpage, hparent⟩ := hn.keyboard k hk
    have hgroups (g : PageGroup) (hg : g ∈ n.groups) : ∃ k ∈ n.groups ++ [new], g.pages ⊆ k.pages :=
      ⟨g, List.mem_append_left _ hg, List.Subset.refl _⟩
    exact ⟨isPage_mono (n := n) (List.Subset.refl _) hgroups hpage, hparent⟩

/-- One more tile for a group, which stands in its view. -/
theorem Anchored.addTile (hn : n.Anchored s) {g : PageGroup} (hg : n.groups[gi]? = some g)
    {p : Page} (hp : s.parent? p.widget = some g.view) {f : PageGroup → PageGroup}
    (hf : ∀ g, (f g).view = g.view ∧ (f g).pages = g.pages ++ [p]) :
    (n.modifyGroup gi f).Anchored s := by
  rcases n.modifyGroup_cases gi f with he | ⟨gs₁, g', gs₂, hgroups, rfl, he⟩
  · rwa [he]
  obtain rfl : g' = g := by simpa [hgroups] using hg
  have hmem : g' ∈ n.groups := List.mem_of_getElem? hg
  have hold {k : PageGroup} (hk : k ∈ gs₁ ++ f g' :: gs₂) : k ∈ n.groups ∨ k = f g' := by
    simp only [hgroups, List.mem_append, List.mem_cons] at hk ⊢
    tauto
  have hnew {k : PageGroup} (hk : k ∈ n.groups) : ∃ k' ∈ gs₁ ++ f g' :: gs₂, k.pages ⊆ k'.pages := by
    simp only [hgroups, List.mem_append, List.mem_cons] at hk
    rcases hk with hk | rfl | hk
    · exact ⟨k, by simp [hk], List.Subset.refl _⟩
    · exact ⟨f k, by simp, (hf k).2 ▸ List.subset_append_left _ _⟩
    · exact ⟨k, by simp [hk], List.Subset.refl _⟩
  rw [he]
  refine ⟨hn.page, fun k hk => ?_, fun k hk q hq => ?_, fun k hk => ?_, hn.single⟩
  · rcases hold hk with hk | rfl
    · exact hn.view k hk
    · exact (hf g').1 ▸ hn.view g' hmem
  · rcases hold hk with hk | rfl
    · exact hn.tile k hk q hq
    · rw [(hf g').2] at hq
      rw [(hf g').1]
      rcases List.mem_append.mp hq with hq | hq
      · exact hn.tile g' hmem q hq
      · rwa [List.mem_singleton.mp hq]
  · obtain ⟨hpage, hparent⟩ := hn.keyboard k hk
    exact ⟨isPage_mono (n := n) (List.Subset.refl _) (fun _ => hnew) hpage, hparent⟩

theorem addTile?_moves {id : String} {size : Size} (he : n.addTile? s gi id size = some (h, m, t)) :
    Moves n s m t := by
  obtain ⟨g, hg, he⟩ := Option.map_eq_some_iff.mp he
  extract_lets place at he
  split at he
  next k s₁ hc =>
  extract_lets s₂ s₃ s₄ s₅ at he
  simp only [Prod.mk.injEq] at he
  obtain ⟨rfl, rfl, rfl⟩ := he
  have hplace : Later s₂ s₃ := by
    unfold s₃
    split
    · exact Screen.later_modify s₂ k _
    · exact Screen.later_modify s₂ k _
  have hactive : Later s₄ s₅ := (Screen.later_modify s₄ g.view _).ite
  have hlooks : Later s₁ s₅ := (((Screen.later_modify s₁ k _).trans hplace).trans
    (Screen.later_modify s₃ k _)).trans hactive
  have hmakes : s.Makes .tile g.view k s₅ := Screen.makes hc hlooks
  refine ⟨hmakes.later, ?_, List.prefix_refl _, fun hs hn => ?_⟩
  · have hviews :=
      modifyGroup_views n gi (fun g => { g with pages := g.pages ++ [⟨id, k⟩] }) fun _ => rfl
    exact hviews.symm ▸ List.prefix_refl _
  · have hparent := hmakes.parent? hs (hn.view g (List.mem_of_getElem? hg))
    exact (hn.stands hs (hmakes.later hs)).addTile (p := ⟨id, k⟩) hg hparent fun _ => ⟨rfl, rfl⟩

theorem later_addDot (horizontal : Bool) (row : Handle) (s : Screen) (i : Nat) :
    Later s (addDot horizontal row s i) := by
  unfold addDot
  split
  next k s₁ hc =>
  extract_lets s₂ along across s₃
  have hplace : Later s₂ s₃ := by
    unfold s₃
    split
    · exact Screen.later_modify s₂ k _
    · exact Screen.later_modify s₂ k _
  exact (Screen.makes hc (((Screen.later_modify s₁ k _).trans hplace).trans
    (Screen.later_applyStyles s₃ k _))).later

theorem finishGroup_moves (he : n.finishGroup s gi = (m, t)) : Moves n s m t := by
  unfold finishGroup at he
  split at he
  · cases he
    exact Moves.refl n s
  · next g hg =>
    split at he
    · cases he
      exact Moves.refl n s
    · extract_lets count horizontal at he
      split at he
      next row s₁ hc =>
      extract_lets s₂ s₃ s₄ s₅ at he
      simp only [Prod.mk.injEq] at he
      obtain ⟨rfl, rfl⟩ := he
      have hplace : Later s₂ s₃ := by
        unfold s₃
        split
        · exact (Screen.later_modify s₂ row _).trans (Screen.later_modify _ row _)
        · exact (Screen.later_modify s₂ row _).trans (Screen.later_modify _ row _)
      have hdots : Later s₄ s₅ := Later.foldl (later_addDot _ row) _ s₄
      have hlooks : Later s₁ s₅ := (((Screen.later_applyStyles s₁ row _).trans hplace).trans
        (Screen.later_raise s₃ row)).trans hdots
      exact moves_of_frame (Screen.makes hc hlooks).later
        (frame_modifyGroup (f := ({ · with dots := some row })) (fun _ => ⟨rfl, rfl⟩) n gi)

/-! ## Keyboards -/

theorem Anchored.live_of_isPage (hn : n.Anchored s) (hs : s.Sound) (hp : n.isPage h = true) :
    s.isLive h = true := by
  rcases isPage_iff.mp hp with ⟨p, hpm, rfl⟩ | ⟨g, hg, p, hpm, rfl⟩
  · exact hn.page p hpm
  · exact hs.live_of_parent? (hn.tile g hg p hpm)

/-- A page has its keyboard, or it gets one. -/
theorem keyboard_moves {isNew : Bool} (hp : n.isPage page = true)
    (he : n.keyboard s page = ((k, isNew), m, t)) :
    Moves n s m t ∧ k ∈ m.keyboards.map (·.2) := by
  unfold keyboard at he
  split at he
  · next hk =>
    cases he
    obtain ⟨ks₁, ks₂, hks, -⟩ := List.lookup_eq_some_iff.mp hk
    exact ⟨Moves.refl n s, by simp [hks]⟩
  · next hnone =>
    extract_lets size at he
    split at he
    next k' s₁ hc =>
    extract_lets s₂ s₃ at he
    simp only [Prod.mk.injEq] at he
    obtain ⟨⟨rfl, -⟩, rfl, rfl⟩ := he
    have hlooks : Later s₁ s₃ := ((Screen.later_modify s₁ k' _).trans
      (Screen.later_modify s₂ k' _)).trans (Screen.later_modify _ k' _)
    have hmakes : s.Makes .keyboard page k' s₃ := Screen.makes hc hlooks
    refine ⟨⟨hmakes.later, List.prefix_refl _, List.prefix_append _ _, fun hs hn => ?_⟩, by simp⟩
    have hparent := hmakes.parent? hs (hn.live_of_isPage hs hp)
    have hfirst : page ∉ n.keyboards.map (·.1) := by
      intro hin
      obtain ⟨e, he, rfl⟩ := List.mem_map.mp hin
      have := List.lookup_eq_none_iff.mp hnone e he
      simp at this
    have hn := hn.stands hs (hmakes.later hs)
    refine ⟨hn.page, hn.view, hn.tile, fun e hem => ?_, ?_⟩
    · rcases List.mem_append.mp hem with hem | hem
      · exact hn.keyboard e hem
      · rw [List.mem_singleton.mp hem]
        exact ⟨hp, hparent⟩
    · rw [List.map_append, List.map_singleton]
      exact hn.single.append (List.nodup_singleton _) (List.disjoint_singleton.mpr hfirst)

/-! ## Who has a keyboard -/

theorem display_keyboards {path : String} (hd : n.display s path = .ok (m, t)) :
    m.keyboards = n.keyboards := by
  unfold display at hd
  cases hg : n.goal path with
  | error e =>
    rw [hg] at hd
    cases hd
  | ok goal =>
    rw [hg] at hd
    have he : n.showGoal s goal = (m, t) := Except.ok.inj hd
    cases goal with
    | page i => exact congrArg (·.1.keyboards) he.symm
    | tile gi pi => exact congrArg (·.1.keyboards) he.symm

theorem swiped_keyboards (n : Navigation) (s : Screen) (gi : Nat) :
    (n.swiped s gi).1.keyboards = n.keyboards := by
  unfold swiped
  split <;> rfl

theorem addPage_keyboards {id : String} {size : Size} (he : n.addPage s id size = (h, m, t)) :
    m.keyboards = n.keyboards := congrArg (·.2.1.keyboards) he.symm

theorem addGroup_keyboards {id first : String} {orientation : Orientation} {indicator : Indicator}
    {size : Size} (he : n.addGroup s id first orientation indicator size = (gi, m, t)) :
    m.keyboards = n.keyboards := congrArg (·.2.1.keyboards) he.symm

theorem addTile?_keyboards {id : String} {size : Size}
    (he : n.addTile? s gi id size = some (h, m, t)) : m.keyboards = n.keyboards := by
  obtain ⟨g, -, he⟩ := Option.map_eq_some_iff.mp he
  exact congrArg (·.2.1.keyboards) he.symm

theorem finishGroup_keyboards (he : n.finishGroup s gi = (m, t)) : m.keyboards = n.keyboards := by
  unfold finishGroup at he
  split at he
  · cases he
    rfl
  · split at he
    · cases he
      rfl
    · exact congrArg (·.1.keyboards) he.symm

theorem keyboard_old (he : n.keyboard s page = ((k, false), m, t)) :
    m.keyboards = n.keyboards := by
  unfold keyboard at he
  split at he
  · cases he
    rfl
  · extract_lets size at he
    split at he
    cases he

theorem keyboard_new {isNew : Bool} (he : n.keyboard s page = ((k, isNew), m, t))
    {e : Handle × Handle} (hem : e ∈ m.keyboards) (hnew : e ∉ n.keyboards) : e.2 = k := by
  unfold keyboard at he
  split at he
  · cases he
    exact absurd hem hnew
  · extract_lets size at he
    split at he
    extract_lets sized placed at he
    simp only [Prod.mk.injEq] at he
    obtain ⟨⟨rfl, -⟩, rfl, -⟩ := he
    rcases List.mem_append.mp hem with hem | hem
    · exact absurd hem hnew
    · rw [List.mem_singleton.mp hem]

end ScreenMarkup.Navigation
