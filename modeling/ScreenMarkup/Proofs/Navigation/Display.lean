import ScreenMarkup.Proofs.Navigation.Construction

/-!
# Showing pages

Whatever was visible before: when a page or a group is shown, it is the only
one that is not hidden, and no keyboard is left on the screen.
-/

set_option autoImplicit false

namespace ScreenMarkup

/-- The widget may be hidden or shown if it belongs to the navigation; it holds what it held. -/
def Widget.Steers (w v : Widget) : Prop :=
  v.content = { w.content with hidden := v.hidden } ∧
    (w.kind.navigates = false → v.hidden = w.hidden)

namespace Widget.Steers

variable {w v x : Widget}

theorem refl (w : Widget) : w.Steers w := ⟨rfl, fun _ => rfl⟩

theorem sameKind (hs : w.Steers v) : w.SameKind v := congrArg WidgetContent.kind hs.1

theorem trans (h₁ : w.Steers v) (h₂ : v.Steers x) : w.Steers x := by
  refine ⟨by rw [h₂.1, h₁.1], fun hn => ?_⟩
  have hk : v.kind = w.kind := h₁.sameKind
  rw [h₂.2 (by rw [hk]; exact hn), h₁.2 hn]

theorem ofContent (hc : w.SameContent v) : w.Steers v :=
  ⟨by rw [hc]; exact congrArg (fun b => { w.content with hidden := b }) (congrArg
    WidgetContent.hidden hc).symm, fun _ => congrArg WidgetContent.hidden hc⟩

end Widget.Steers

namespace Screen

variable {s t u : Screen} {h k : Handle} {H : Handle → Prop}

/-- Only the navigation hides or shows anything. -/
abbrev Steers (s t : Screen) : Prop := Touches (fun _ => True) Widget.Steers s t

theorem Steers.refl (s : Screen) : Steers s s :=
  Touches.refl (P := Widget.Steers) Widget.Steers.refl s

theorem Steers.trans (h₁ : Steers s t) (h₂ : Steers t u) : Steers s u :=
  Touches.trans (fun _ _ _ => Widget.Steers.trans) h₁ h₂

theorem Restyles.steers (hr : Restyles H s t) : Steers s t :=
  Touches.mono hr (fun _ _ => trivial) fun _ _ => Widget.Steers.ofContent

theorem Restyles.isHidden (hr : Restyles H s t) (k : Handle) : t.isHidden k = s.isHidden k := by
  cases hw : s.widget? k with
  | none => rw [Screen.isHidden, Screen.isHidden, hw, hr.widget?_eq_none hw]
  | some w =>
    obtain ⟨v, hv, hc⟩ := hr.exists_content hw
    rw [Screen.isHidden, Screen.isHidden, hw, hv]
    exact congrArg WidgetContent.hidden hc

theorem Steers.retains (hr : Steers s t) (hs : s.WellFormed) : Retains s t :=
  Touches.retains hr (fun _ _ => Widget.Steers.sameKind) hs

theorem isHidden_setHidden (hl : s.isLive h = true) (b : Bool) (k : Handle) :
    (s.setHidden h b).isHidden k = if k = h then b else s.isHidden k := by
  obtain ⟨w, hw⟩ := isLive_iff.mp hl
  rw [Screen.isHidden, setHidden, widget?_modify]
  split
  · rw [hw]
    rfl
  · rfl

theorem setHidden_steers {kind : WidgetKind} (hk : s.kind? h = some kind)
    (hn : kind.navigates = true) (b : Bool) : Steers s (s.setHidden h b) where
  shape := modify_shape _
  free := modify_free _
  size := modify_size _
  widget k := by
    rw [setHidden, widget?_modify]
    split
    · next he =>
      subst he
      obtain ⟨w, hw, hwk⟩ := Option.map_eq_some_iff.mp hk
      rw [hw]
      refine .some ⟨rfl, fun hn' => ?_⟩
      rw [hwk, hn] at hn'
      cases hn'
    · cases s.widget? k with
      | none => exact .none
      | some w => exact .some (Widget.Steers.refl w)
  frame k hk := absurd trivial hk

/-- Hides and shows widgets in order. -/
def setHiddens (s : Screen) (es : List (Handle × Bool)) : Screen :=
  es.foldl (fun s e => s.setHidden e.1 e.2) s

/-- A widget that all its entries agree about. -/
theorem isHidden_setHiddens {es : List (Handle × Bool)} {b : Bool}
    (hl : ∀ e ∈ es, s.isLive e.1 = true) (hb : ∀ c, (k, c) ∈ es → c = b)
    (hk : (∃ c, (k, c) ∈ es) ∨ s.isHidden k = b) : (s.setHiddens es).isHidden k = b := by
  induction es generalizing s with
  | nil => exact hk.resolve_left fun ⟨_, hc⟩ => nomatch hc
  | cons e es ih =>
    have hlive := hl e (by simp)
    have hset := isHidden_setHidden hlive e.2 k
    refine ih (s := s.setHidden e.1 e.2) (fun e' he' => ?_)
      (fun c hc => hb c (List.mem_cons_of_mem _ hc)) ?_
    · have ht : Touches (· = e.1) Widget.SameKind s (s.setHidden e.1 e.2) :=
        touches_modify (fun _ => rfl) fun _ => rfl
      rw [ht.isLive]
      exact hl e' (List.mem_cons_of_mem _ he')
    · by_cases he : k = e.1
      · right
        rw [hset, if_pos he]
        exact hb e.2 (by simp [he])
      · rw [hset, if_neg he]
        rcases hk with ⟨c, hc⟩ | hk
        · rcases List.mem_cons.mp hc with hc | hc
          · exact absurd (congrArg Prod.fst hc) he
          · exact .inl ⟨c, hc⟩
        · exact .inr hk

theorem setHiddens_steers {es : List (Handle × Bool)}
    (hk : ∀ e ∈ es, ∃ kind, s.kind? e.1 = some kind ∧ kind.navigates = true) :
    Steers s (s.setHiddens es) := by
  induction es generalizing s with
  | nil => exact Steers.refl s
  | cons e es ih =>
    obtain ⟨kind, hkind, hn⟩ := hk e (by simp)
    have hs := setHidden_steers hkind hn e.2
    refine hs.trans (ih fun e' he' => ?_)
    rw [hs.kind? fun _ _ => Widget.Steers.sameKind]
    exact hk e' (List.mem_cons_of_mem _ he')

end Screen

namespace Navigation

variable {n m : Navigation} {s t : Screen} {h : Handle} {pages groups : Nat → Bool}

/-! ## Who is hidden -/

def pageFlags (n : Navigation) (pages : Nat → Bool) : List (Handle × Bool) :=
  n.pages.zipIdx.map fun p => (p.1.widget, pages p.2)

def groupFlags (n : Navigation) (groups : Nat → Bool) : List (Handle × Bool) :=
  n.groups.zipIdx.flatMap fun g => (g.1.view, groups g.2) :: g.1.dots.toList.map (·, groups g.2)

def keyboardFlags (n : Navigation) : List (Handle × Bool) := n.keyboards.map fun k => (k.2, true)

theorem hidePages_eq (n : Navigation) (s : Screen) (pages : Nat → Bool) :
    n.hidePages s pages = s.setHiddens (n.pageFlags pages) := by
  rw [hidePages, Screen.setHiddens, pageFlags, List.foldl_map]

theorem hideKeyboards_eq (n : Navigation) (s : Screen) :
    n.hideKeyboards s = s.setHiddens n.keyboardFlags := by
  rw [hideKeyboards, Screen.setHiddens, keyboardFlags, List.foldl_map]

theorem hideGroups_eq (n : Navigation) (s : Screen) (groups : Nat → Bool) :
    n.hideGroups s groups = s.setHiddens (n.groupFlags groups) := by
  rw [hideGroups, Screen.setHiddens, groupFlags, List.foldl_flatMap]
  congr 1
  funext s g
  unfold PageGroup.setHidden
  cases g.1.dots <;> rfl

theorem setHiddens_append (s : Screen) (es fs : List (Handle × Bool)) :
    (s.setHiddens es).setHiddens fs = s.setHiddens (es ++ fs) := by
  rw [Screen.setHiddens, Screen.setHiddens, Screen.setHiddens, List.foldl_append]

/-- An entry of one of the three lists, for a widget of a kind. -/
inductive Flagged (n : Navigation) (pages groups : Nat → Bool) : WidgetKind → Handle → Bool → Prop
  | page {h : Handle} {i : Nat} {p : Page} (hp : n.pages[i]? = some p) (hh : p.widget = h) :
    Flagged n pages groups .page h (pages i)
  | view {h : Handle} {i : Nat} {g : PageGroup} (hg : n.groups[i]? = some g) (hh : g.view = h) :
    Flagged n pages groups .tileView h (groups i)
  | dots {h : Handle} {i : Nat} {g : PageGroup} (hg : n.groups[i]? = some g)
    (hh : g.dots = some h) : Flagged n pages groups .indicator h (groups i)
  | keyboard {h : Handle} {k : Handle × Handle} (hk : k ∈ n.keyboards) (hh : k.2 = h) :
    Flagged n pages groups .keyboard h true

theorem flagged_iff (n : Navigation) (pages groups : Nat → Bool) (e : Handle × Bool) :
    (∃ kind, n.Flagged pages groups kind e.1 e.2) ↔
      e ∈ n.pageFlags pages ∨ e ∈ n.groupFlags groups ∨ e ∈ n.keyboardFlags := by
  obtain ⟨h, b⟩ := e
  simp only [pageFlags, groupFlags, keyboardFlags, List.mem_map, List.mem_flatMap, Prod.exists,
    List.mem_zipIdx_iff_getElem?, List.mem_cons, Option.mem_toList, Prod.mk.injEq]
  constructor
  · rintro ⟨kind, hf⟩
    cases hf with
    | page hp hh => exact .inl ⟨_, _, hp, hh, rfl⟩
    | view hg hh => exact .inr (.inl ⟨_, _, hg, .inl ⟨hh.symm, rfl⟩⟩)
    | dots hg hh => exact .inr (.inl ⟨_, _, hg, .inr ⟨h, hh, rfl, rfl⟩⟩)
    | keyboard hk hh => exact .inr (.inr ⟨_, _, hk, hh, rfl⟩)
  · rintro (⟨p, i, hp, hh, rfl⟩ | ⟨g, i, hg, ⟨hh, rfl⟩ | ⟨d, hd, rfl, rfl⟩⟩ | ⟨a, k, hk, hh, rfl⟩)
    · exact ⟨_, .page hp hh⟩
    · exact ⟨_, .view hg hh.symm⟩
    · exact ⟨_, .dots hg hd⟩
    · exact ⟨_, .keyboard hk hh⟩

theorem WellFormed.flagged_kind (hn : n.WellFormed s) {kind : WidgetKind} {b : Bool}
    (hf : n.Flagged pages groups kind h b) : s.kind? h = some kind ∧ kind.navigates = true := by
  cases hf with
  | page hp hh => exact ⟨hh ▸ hn.page _ (List.mem_of_getElem? hp), rfl⟩
  | view hg hh => exact ⟨hh ▸ hn.view _ (List.mem_of_getElem? hg), rfl⟩
  | dots hg hh => exact ⟨hn.dots _ (List.mem_of_getElem? hg) _ hh, rfl⟩
  | keyboard hk hh => exact ⟨hh ▸ hn.keyboard _ hk, rfl⟩

/-- In a list with different images, an image tells the position. -/
theorem index_unique {α β : Type} {f : α → Option β} {l : List α} (hl : (l.filterMap f).Nodup)
    {i j : Nat} {a b : α} {x : β} (ha : l[i]? = some a) (hb : l[j]? = some b) (hfa : f a = some x)
    (hfb : f b = some x) : i = j := by
  rw [List.Nodup, List.pairwise_filterMap, List.pairwise_iff_getElem] at hl
  obtain ⟨hi, rfl⟩ := List.getElem?_eq_some_iff.mp ha
  obtain ⟨hj, rfl⟩ := List.getElem?_eq_some_iff.mp hb
  rcases Nat.lt_trichotomy i j with hij | hij | hij
  · exact absurd rfl (hl i j hi hj hij x hfa x hfb)
  · exact hij
  · exact absurd rfl (hl j i hj hi hij x hfb x hfa)

theorem WellFormed.page_unique (hn : n.WellFormed s) {i j : Nat} {p q : Page}
    (hp : n.pages[i]? = some p) (hq : n.pages[j]? = some q) (he : p.widget = q.widget) : i = j := by
  refine index_unique (f := fun p => some p.widget) ?_ hp hq (congrArg some he) rfl
  rw [List.filterMap_eq_map']
  exact hn.pagesNodup

theorem WellFormed.view_unique (hn : n.WellFormed s) {i j : Nat} {g k : PageGroup}
    (hg : n.groups[i]? = some g) (hk : n.groups[j]? = some k) (he : g.view = k.view) : i = j := by
  refine index_unique (f := fun g => some g.view) ?_ hg hk (congrArg some he) rfl
  rw [List.filterMap_eq_map']
  exact hn.viewsNodup

/-- What is hidden on a screen where the entries of all three lists were applied. -/
structure Flags (n : Navigation) (t : Screen) (pages groups : Nat → Bool) : Prop where
  page : ∀ i p, n.pages[i]? = some p → t.isHidden p.widget = pages i
  view : ∀ i g, n.groups[i]? = some g → t.isHidden g.view = groups i
  dots : ∀ i g, n.groups[i]? = some g → ∀ d, g.dots = some d → t.isHidden d = groups i
  keyboard : ∀ k ∈ n.keyboards, t.isHidden k.2 = true

/-- All entries for a widget agree, since its kind tells the list and its place there. -/
theorem WellFormed.flagged_unique (hn : n.WellFormed s) {kind kind' : WidgetKind} {b c : Bool}
    (hb : n.Flagged pages groups kind h b) (hc : n.Flagged pages groups kind' h c) : c = b := by
  have hkind : kind' = kind :=
    Option.some.inj ((hn.flagged_kind hc).1.symm.trans (hn.flagged_kind hb).1)
  subst hkind
  cases hb with
  | page hp hh =>
    cases hc with
    | page hq hh' => rw [hn.page_unique hp hq (hh.trans hh'.symm)]
  | view hg hh =>
    cases hc with
    | view hk hh' => rw [hn.view_unique hg hk (hh.trans hh'.symm)]
  | dots hg hh =>
    cases hc with
    | dots hk hh' => rw [index_unique hn.dotsNodup hg hk hh hh']
  | keyboard hk hh =>
    cases hc with
    | keyboard hk' hh' => rfl

theorem WellFormed.flags (hn : n.WellFormed s) (pages groups : Nat → Bool)
    (es : List (Handle × Bool)) (hes : ∀ e, e ∈ es ↔
      e ∈ n.pageFlags pages ∨ e ∈ n.groupFlags groups ∨ e ∈ n.keyboardFlags) :
    n.Flags (s.setHiddens es) pages groups ∧ s.Steers (s.setHiddens es) := by
  have hflagged : ∀ e, e ∈ es ↔ ∃ kind, n.Flagged pages groups kind e.1 e.2 :=
    fun e => (hes e).trans (n.flagged_iff pages groups e).symm
  have hkind : ∀ e ∈ es, ∃ kind, s.kind? e.1 = some kind ∧ kind.navigates = true := by
    intro e he
    obtain ⟨kind, hf⟩ := (hflagged e).mp he
    exact ⟨kind, hn.flagged_kind hf⟩
  have hset {k : Handle} {kind : WidgetKind} {b : Bool} (hf : n.Flagged pages groups kind k b) :
      (s.setHiddens es).isHidden k = b := by
    refine Screen.isHidden_setHiddens (fun e he => ?_) (fun c hc => ?_)
      (.inl ⟨b, (hflagged (k, b)).mpr ⟨kind, hf⟩⟩)
    · obtain ⟨kind, hk, -⟩ := hkind e he
      exact Screen.isLive_of_kind? hk
    · obtain ⟨kind', hf'⟩ := (hflagged (k, c)).mp hc
      exact hn.flagged_unique hf hf'
  exact ⟨⟨fun i p hp => hset (.page hp rfl), fun i g hg => hset (.view hg rfl),
    fun i g hg d hd => hset (.dots hg hd), fun k hk => hset (.keyboard hk rfl)⟩,
    Screen.setHiddens_steers hkind⟩

/-! ## One target -/

/-- The widget that the navigation claims to show: of a page or of a group, not of both. -/
def shown? (n : Navigation) : Option Handle :=
  match n.currentPage, n.currentGroup with
  | some i, none => n.pages[i]?.map (·.widget)
  | none, some i => n.groups[i]?.map (·.view)
  | _, _ => none

/-- One target is not hidden, and it is the one that the navigation claims to show. -/
structure Exclusive (n : Navigation) (s : Screen) : Prop where
  only : ∃ h, n.shown? = some h ∧ (n.targets.filter fun k => !s.isHidden k) = [h]
  dots : ∀ g ∈ n.groups, ∀ d, g.dots = some d → s.isHidden d = s.isHidden g.view

theorem WellFormed.targets_nodup (hn : n.WellFormed s) : n.targets.Nodup := by
  refine List.nodup_append.mpr ⟨hn.pagesNodup, hn.viewsNodup, fun a ha b hb hab => ?_⟩
  obtain ⟨p, hp, rfl⟩ := List.mem_map.mp ha
  obtain ⟨g, hg, rfl⟩ := List.mem_map.mp hb
  have hkind := (hn.page p hp).symm.trans (hab ▸ hn.view g hg)
  cases hkind

theorem filter_visible (hn : n.targets.Nodup) (hh : h ∈ n.targets)
    (hv : ∀ k ∈ n.targets, s.isHidden k = decide (k ≠ h)) :
    (n.targets.filter fun k => !s.isHidden k) = [h] := by
  have hfilter : (n.targets.filter fun k => !s.isHidden k) = n.targets.filter (· = h) := by
    apply List.filter_congr
    intro k hk
    rw [hv k hk]
    simp
  rw [hfilter, List.filter_eq, List.count_eq_one_of_mem hn hh]
  rfl

theorem WellFormed.exclusive_page (hn : n.WellFormed s) {i : Nat} {p : Page}
    (hp : n.pages[i]? = some p)
    (hf : n.Flags t (fun j => decide (j ≠ i)) fun _ => true) :
    ({ n with currentPage := some i, currentGroup := none } : Navigation).Exclusive t := by
  have hpage := hn.page p (List.mem_of_getElem? hp)
  have hshown : ({ n with currentPage := some i, currentGroup := none } : Navigation).shown? =
      some p.widget := by
    show n.pages[i]?.map (·.widget) = _
    rw [hp, Option.map_some]
  refine ⟨⟨p.widget, hshown, filter_visible hn.targets_nodup ?_
    fun k hk => ?_⟩, fun g hg d hd => ?_⟩
  · exact List.mem_append_left _ (List.mem_map.mpr ⟨p, List.mem_of_getElem? hp, rfl⟩)
  · rcases List.mem_append.mp hk with hk | hk
    · obtain ⟨q, hq, rfl⟩ := List.mem_map.mp hk
      obtain ⟨j, hj⟩ := List.mem_iff_getElem?.mp hq
      rw [hf.page j q hj]
      refine decide_eq_decide.mpr (not_congr ⟨fun he => ?_, fun he => hn.page_unique hj hp he⟩)
      subst he
      rw [hp] at hj
      rw [Option.some.inj hj]
    · obtain ⟨g, hg, rfl⟩ := List.mem_map.mp hk
      obtain ⟨j, hj⟩ := List.mem_iff_getElem?.mp hg
      rw [hf.view j g hj]
      have hne : g.view ≠ p.widget := by
        intro he
        have hkind := (hn.view g hg).symm.trans (he ▸ hpage)
        cases hkind
      exact (decide_eq_true hne).symm
  · obtain ⟨j, hj⟩ := List.mem_iff_getElem?.mp hg
    rw [hf.dots j g hj d hd, hf.view j g hj]

theorem WellFormed.exclusive_group (hn : n.WellFormed s) {i : Nat} {g : PageGroup}
    (hg : n.groups[i]? = some g)
    (hf : n.Flags t (fun _ => true) fun j => decide (j ≠ i)) :
    ({ n with currentPage := none, currentGroup := some i } : Navigation).Exclusive t := by
  have hview := hn.view g (List.mem_of_getElem? hg)
  have hshown : ({ n with currentPage := none, currentGroup := some i } : Navigation).shown? =
      some g.view := by
    show n.groups[i]?.map (·.view) = _
    rw [hg, Option.map_some]
  refine ⟨⟨g.view, hshown, filter_visible hn.targets_nodup ?_
    fun k hk => ?_⟩, fun k hk d hd => ?_⟩
  · exact List.mem_append_right _ (List.mem_map.mpr ⟨g, List.mem_of_getElem? hg, rfl⟩)
  · rcases List.mem_append.mp hk with hk | hk
    · obtain ⟨q, hq, rfl⟩ := List.mem_map.mp hk
      obtain ⟨j, hj⟩ := List.mem_iff_getElem?.mp hq
      rw [hf.page j q hj]
      have hne : q.widget ≠ g.view := by
        intro he
        have hkind := (hn.page q hq).symm.trans (he ▸ hview)
        cases hkind
      exact (decide_eq_true hne).symm
    · obtain ⟨c, hc, rfl⟩ := List.mem_map.mp hk
      obtain ⟨j, hj⟩ := List.mem_iff_getElem?.mp hc
      replace hj : n.groups[j]? = some c := hj
      rw [hf.view j c hj]
      refine decide_eq_decide.mpr (not_congr ⟨fun he => ?_, fun he => hn.view_unique hj hg he⟩)
      subst he
      rw [hg] at hj
      rw [Option.some.inj hj]
  · obtain ⟨j, hj⟩ := List.mem_iff_getElem?.mp hk
    rw [hf.dots j k hj d hd, hf.view j k hj]

/-- Nothing that can be shown came or went. -/
structure SameTargets (n m : Navigation) : Prop where
  pages : m.pages = n.pages
  groups : m.groups.map (fun g => (g.view, g.dots)) = n.groups.map fun g => (g.view, g.dots)

namespace SameTargets

theorem refl (n : Navigation) : SameTargets n n := ⟨rfl, rfl⟩

theorem modifyGroup (n : Navigation) (gi : Nat) {f : PageGroup → PageGroup}
    (hf : ∀ g, (f g).view = g.view ∧ (f g).dots = g.dots) :
    SameTargets n (n.modifyGroup gi f) := by
  refine ⟨rfl, ?_⟩
  rcases n.modifyGroup_cases gi f with he | ⟨gs₁, g, gs₂, hg, -, he⟩
  · rw [he]
  · rw [he, hg, List.map_append, List.map_append, List.map_cons, List.map_cons, (hf g).1, (hf g).2]

theorem views (hs : SameTargets n m) : m.groups.map (·.view) = n.groups.map (·.view) := by
  have h := congrArg (List.map Prod.fst) hs.groups
  rwa [List.map_map, List.map_map] at h

theorem targets (hs : SameTargets n m) : m.targets = n.targets := by
  rw [Navigation.targets, Navigation.targets, hs.pages, hs.views]

theorem view? (hs : SameTargets n m) (i : Nat) :
    m.groups[i]?.map (·.view) = n.groups[i]?.map (·.view) := by
  rw [← List.getElem?_map, ← List.getElem?_map, hs.views]

/-- A group with dots has the same dots and the same view on the other side. -/
theorem exists_group (hs : SameTargets n m) {g : PageGroup} (hg : g ∈ m.groups) :
    ∃ k ∈ n.groups, k.view = g.view ∧ k.dots = g.dots := by
  have hmem : (g.view, g.dots) ∈ n.groups.map fun g => (g.view, g.dots) :=
    hs.groups ▸ List.mem_map.mpr ⟨g, hg, rfl⟩
  obtain ⟨k, hk, he⟩ := List.mem_map.mp hmem
  exact ⟨k, hk, congrArg Prod.fst he, congrArg Prod.snd he⟩

theorem shown? (hs : SameTargets n m) (hp : m.currentPage = n.currentPage)
    (hg : m.currentGroup = n.currentGroup) : m.shown? = n.shown? := by
  unfold Navigation.shown?
  rw [hp, hg, hs.pages]
  cases n.currentPage with
  | some i => cases n.currentGroup <;> rfl
  | none =>
    cases n.currentGroup with
    | none => rfl
    | some i => exact hs.view? i

end SameTargets

/-- Who is shown depends on the targets and their dots only. -/
theorem Exclusive.congr (he : n.Exclusive s) (hs : SameTargets n m)
    (hp : m.currentPage = n.currentPage) (hg : m.currentGroup = n.currentGroup)
    (hh : ∀ h ∈ n.targets ++ n.allDots, t.isHidden h = s.isHidden h) : m.Exclusive t := by
  obtain ⟨h, hshown, hfilter⟩ := he.only
  refine ⟨⟨h, (hs.shown? hp hg).trans hshown, ?_⟩, fun g hgm d hd => ?_⟩
  · rw [hs.targets, ← hfilter]
    exact List.filter_congr fun k hk => by rw [hh k (List.mem_append_left _ hk)]
  · obtain ⟨k, hk, hview, hdots⟩ := hs.exists_group hgm
    rw [hd] at hdots
    rw [← hview, hh d (List.mem_append_right _ (List.mem_filterMap.mpr ⟨k, hk, hdots⟩)),
      hh k.view (List.mem_append_left _ (List.mem_append_right _ (List.mem_map.mpr ⟨k, hk, rfl⟩)))]
    exact he.dots k hk d hdots

/-! ## Showing -/

/-- The goal is a page or a group that is there. -/
def Reaches (n : Navigation) : Goal → Prop
  | .page i => i < n.pages.length
  | .tile gi _ => gi < n.groups.length

theorem follow_reaches {k : Nat} {path : String} {goal : Goal}
    (hg : n.follow k path = .ok goal) : n.Reaches goal := by
  have hdirect {path : String} (hg : n.direct path = .ok goal) : n.Reaches goal := by
    unfold direct at hg
    split at hg
    · unfold tileGoal at hg
      split at hg
      · cases hg
      · next gi hgi =>
        split at hg
        · cases hg
        · cases hg
          exact (List.findIdx?_eq_some_iff_findIdx_eq.mp hgi).1
    · unfold pageGoal at hg
      split at hg
      · next i hi =>
        cases hg
        exact (List.findIdx?_eq_some_iff_findIdx_eq.mp hi).1
      · cases hg
  induction k generalizing path with
  | zero => exact hdirect hg
  | succ k ih =>
    unfold follow at hg
    split at hg
    · exact ih hg
    · exact hdirect hg

/-- The navigation `m` on the screen `t` is what showing something makes of `n` on `s`. -/
structure Displayed (n : Navigation) (s : Screen) (m : Navigation) (t : Screen) : Prop where
  steers : s.Steers t
  wellFormed : m.WellFormed t
  exclusive : m.Exclusive t
  targets : SameTargets n m
  kept : m.keyboards = n.keyboards
  keyboards : ∀ k ∈ m.keyboards, t.isHidden k.2 = true

theorem highlight_restyles (g : PageGroup) (s : Screen) (i : Nat) :
    Screen.Restyles (fun _ => True) s (g.highlight s i) := by
  unfold PageGroup.highlight
  split
  · exact Screen.Restyles.foldl (f := fun s (dot : Handle × Nat) =>
      s.applyStyle dot.1 (.bgColor (PageGroup.dotColor dot.2 i)))
      (fun s dot => (Screen.applyStyle_restyles s dot.1 _).mono fun _ _ => trivial) _ s
  · exact Screen.Restyles.refl s

theorem showPage_spec (hs : s.WellFormed) (hn : n.WellFormed s) {i : Nat}
    (hi : i < n.pages.length) : Displayed n s (n.showPage s i).1 (n.showPage s i).2 := by
  have hpage : n.pages[i]? = some n.pages[i] := List.getElem?_eq_getElem hi
  have hscreen : (n.showPage s i).2 = s.setHiddens (n.groupFlags (fun _ => true) ++
      (n.keyboardFlags ++ n.pageFlags fun j => decide (j ≠ i))) := by
    rw [showPage, hideGroups_eq, hideKeyboards_eq, hidePages_eq, setHiddens_append,
      setHiddens_append]
  obtain ⟨hflags, hsteers⟩ := hn.flags (fun j => decide (j ≠ i)) (fun _ => true) _ fun e => by
    show e ∈ n.groupFlags (fun _ => true) ++
      (n.keyboardFlags ++ n.pageFlags fun j => decide (j ≠ i)) ↔ _
    simp only [List.mem_append]
    tauto
  rw [hscreen]
  have hretain := hn.retain (hsteers.retains hs)
  exact ⟨hsteers, { hretain with
    currentPage := fun j hj => by cases hj; exact hi
    currentGroup := fun j hj => by cases hj }, hn.exclusive_page hpage hflags, ⟨rfl, rfl⟩, rfl,
    hflags.keyboard⟩

theorem showTile_spec (hs : s.WellFormed) (hn : n.WellFormed s) {gi : Nat}
    (hi : gi < n.groups.length) (pi : Nat) :
    Displayed n s (n.showTile s gi pi).1 (n.showTile s gi pi).2 := by
  have hgroup : n.groups[gi]? = some n.groups[gi] := List.getElem?_eq_getElem hi
  unfold showTile
  extract_lets s₁ s₂
  have hscreen : s₁ = s.setHiddens (n.pageFlags (fun _ => true) ++
      (n.groupFlags (fun j => decide (j ≠ gi)) ++ n.keyboardFlags)) := by
    unfold s₁
    rw [hidePages_eq, hideGroups_eq, hideKeyboards_eq, setHiddens_append, setHiddens_append]
  obtain ⟨hflags, hsteers⟩ := hn.flags (fun _ => true) (fun j => decide (j ≠ gi)) _ fun e => by
    show e ∈ n.pageFlags (fun _ => true) ++
      (n.groupFlags (fun j => decide (j ≠ gi)) ++ n.keyboardFlags) ↔ _
    simp only [List.mem_append]
  rw [← hscreen] at hflags hsteers
  have hlooks : Screen.Restyles (fun _ => True) s₁ s₂ := by
    unfold s₂
    rw [hgroup]
    refine Screen.Restyles.trans ?_ (highlight_restyles _ _ _)
    split
    · exact (Screen.setActiveTile_restyles _ _ _).mono fun _ _ => trivial
    · exact Screen.Restyles.refl _
  have hsame : SameTargets n (n.modifyGroup gi ({ · with current := pi })) :=
    SameTargets.modifyGroup n gi fun _ => ⟨rfl, rfl⟩
  have hall := hsteers.trans hlooks.steers
  have hretain := hn.retain (hall.retains hs)
  have hmod : (n.modifyGroup gi ({ · with current := pi })).WellFormed s₂ :=
    hretain.modifyGroup (fun _ => rfl) (fun g hg => hretain.tile g hg) fun _ _ => .inl rfl
  refine ⟨hall, { hmod with
    currentPage := fun j hj => by cases hj
    currentGroup := fun j hj => by
      cases hj
      show gi < (n.groups.modify gi _).length
      rwa [List.length_modify] }, ?_, ⟨hsame.pages, hsame.groups⟩, rfl, fun k hk => ?_⟩
  · refine (hn.exclusive_group hgroup hflags).congr ⟨hsame.pages, hsame.groups⟩ rfl rfl
      fun h _ => hlooks.isHidden h
  · rw [hlooks.isHidden]
    exact hflags.keyboard k hk

theorem display_spec (hs : s.WellFormed) (hn : n.WellFormed s) {path : String}
    (hd : n.display s path = .ok (m, t)) : Displayed n s m t := by
  unfold display at hd
  cases hg : n.goal path with
  | error e =>
    rw [hg] at hd
    cases hd
  | ok goal =>
    rw [hg] at hd
    have hreach := follow_reaches hg
    have he : n.showGoal s goal = (m, t) := Except.ok.inj hd
    cases goal with
    | page i =>
      have hspec := showPage_spec hs hn hreach
      rwa [show n.showPage s i = (m, t) from he] at hspec
    | tile gi pi =>
      have hspec := showTile_spec hs hn hreach pi
      rwa [show n.showTile s gi pi = (m, t) from he] at hspec

/-- A swipe only moves the dots of one group. -/
theorem swiped_spec (hs : s.WellFormed) (hn : n.WellFormed s) (gi : Nat) :
    Screen.Restyles (fun _ => True) s (n.swiped s gi).2 ∧ SameTargets n (n.swiped s gi).1 ∧
      (n.swiped s gi).1.WellFormed (n.swiped s gi).2 ∧
      (n.swiped s gi).1.currentPage = n.currentPage ∧
      (n.swiped s gi).1.currentGroup = n.currentGroup ∧
      (n.swiped s gi).1.keyboards = n.keyboards := by
  unfold swiped
  split
  · exact ⟨Screen.Restyles.refl s, SameTargets.refl n, hn, rfl, rfl, rfl⟩
  · next g hg =>
    extract_lets active i
    have hlooks := highlight_restyles g s i
    have hretain := hn.retain (hlooks.steers.retains hs)
    exact ⟨hlooks, SameTargets.modifyGroup n gi fun _ => ⟨rfl, rfl⟩,
      hretain.modifyGroup (fun _ => rfl) (fun g hg => hretain.tile g hg) fun _ _ => .inl rfl,
      rfl, rfl, rfl⟩

end Navigation
end ScreenMarkup
