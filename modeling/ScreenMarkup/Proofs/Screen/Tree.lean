import ScreenMarkup.Proofs.Screen.WellFormed

/-!
# Operations on the widget tree

Making, moving and deleting widgets keeps a screen sound, and well formed when
new widgets are put into containers. A new widget changes no other one, a move
changes none at all, and a deletion takes exactly the widgets of one branch.
-/

set_option autoImplicit false

namespace ScreenMarkup.Screen

variable {s t u : Screen} {h k p : Handle}

theorem children_eq (s : Screen) (h : Handle) :
    s.children h = ((s.branch? h).map Branch.childHandles).getD [] := rfl

theorem children_congr (hs : t.shape = s.shape) (h : Handle) : t.children h = s.children h := by
  rw [children_eq, children_eq, branch?, branch?, hs]

theorem Sound.mem_handles (hs : s.Sound) (hl : s.isLive h = true) :
    h ∈ s.shape.handles := (hs.live h).mpr hl

theorem Sound.screen_live (hs : s.Sound) : s.isLive Handle.screen = true :=
  (hs.live _).mp (hs.root ▸ s.shape.handle_mem_handles)

/-- Changing the branches below one handle changes the children of no other. -/
theorem Sound.children_modify (hs : s.Sound) {f : List Branch → List Branch}
    (ht : t.shape = s.shape.modify p f) (hkp : k ≠ p)
    (hf : ∀ bs, (Branch.handlesAll bs).Nodup →
      Branch.findAmong? k (f bs) = Branch.findAmong? k bs) :
    t.children k = s.children k := by
  rw [children_eq, children_eq, branch?, ht, Branch.find?_modify hf s.shape hs.nodup, branch?,
    Option.map_map]
  cases hb : Branch.find? k s.shape with
  | none => rfl
  | some b =>
    have hbk : b.handle ≠ p := (Branch.find?_eq_some _ hb).1 ▸ hkp
    simp [Branch.childHandles_modify_of_ne hbk]

theorem Sound.children_modify_self (hs : s.Sound) {f : List Branch → List Branch}
    (ht : t.shape = s.shape.modify p f)
    (hf : ∀ bs, (Branch.handlesAll bs).Nodup →
      Branch.findAmong? p (f bs) = Branch.findAmong? p bs) :
    t.children p = ((s.branch? p).map fun b => (f b.children).map Branch.handle).getD [] := by
  rw [children_eq, branch?, ht, Branch.find?_modify hf s.shape hs.nodup, Option.map_map, branch?]
  cases hb : Branch.find? p s.shape with
  | none => rfl
  | some b =>
    obtain ⟨hbp, hsub⟩ := Branch.find?_eq_some _ hb
    simp [Branch.childHandles_modify_self (hsub.nodup hs.nodup) hbp]

/-! ## Making a widget -/

/-- The widget that a new one is put into. -/
def holder (s : Screen) (parent : Handle) : Handle :=
  if s.isLive parent then parent else Handle.screen

theorem Sound.holder_live (hs : s.Sound) (parent : Handle) :
    s.isLive (s.holder parent) = true := by
  unfold holder
  split
  · assumption
  · exact hs.screen_live

theorem create_shape (s : Screen) (kind : WidgetKind) (parent : Handle) :
    (s.create kind parent).2.shape =
      s.shape.modify (s.holder parent) (· ++ [Branch.leaf (s.create kind parent).1]) := by
  show (s.allocate (Widget.new kind)).2.shape.modify _ _ = _
  rw [allocate_shape]
  rfl

/-- The handle of a new widget has named none before. -/
theorem Sound.create_fresh (hs : s.Sound) (kind : WidgetKind) (parent : Handle) :
    s.widget? (s.create kind parent).1 = none :=
  hs.allocate_fresh (Widget.new kind)

theorem Sound.widget?_create (hs : s.Sound) (kind : WidgetKind) (parent k : Handle) :
    (s.create kind parent).2.widget? k =
      if k = (s.create kind parent).1 then some (Widget.new kind) else s.widget? k :=
  hs.widget?_allocate (Widget.new kind) k

theorem Sound.create_not_mem (hs : s.Sound) (kind : WidgetKind) (parent : Handle) :
    (s.create kind parent).1 ∉ s.shape.handles := by
  rw [hs.live, isLive, hs.create_fresh]
  simp

theorem Sound.branch?_create (hs : s.Sound) (kind : WidgetKind) (parent : Handle) :
    (s.create kind parent).2.branch? (s.create kind parent).1 =
      some (Branch.leaf (s.create kind parent).1) := by
  rw [branch?, create_shape]
  exact Branch.find?_modify_append s.shape hs.nodup (hs.mem_handles (hs.holder_live parent))
    (hs.create_not_mem kind parent)

theorem Sound.children_create (hs : s.Sound) (kind : WidgetKind) (parent : Handle)
    (hk : k ≠ s.holder parent) : (s.create kind parent).2.children k = s.children k := by
  by_cases hnew : k = (s.create kind parent).1
  · subst hnew
    have hnone : s.branch? (s.create kind parent).1 = none :=
      Branch.find?_eq_none s.shape (hs.create_not_mem kind parent)
    rw [children_eq, children_eq, hs.branch?_create, hnone]
    rfl
  · exact hs.children_modify (create_shape s kind parent) hk fun bs _ =>
      Branch.findAmong?_append_leaf bs hnew

theorem Sound.create_ne (hs : s.Sound) (kind : WidgetKind) (parent : Handle)
    (hk : s.isLive k = true) : k ≠ (s.create kind parent).1 := by
  rintro rfl
  rw [isLive, hs.create_fresh] at hk
  cases hk

theorem Sound.handles_create (hs : s.Sound) (kind : WidgetKind) (parent : Handle) :
    (s.create kind parent).2.shape.handles.Perm
      ((s.create kind parent).1 :: s.shape.handles) := by
  rw [create_shape]
  apply Branch.handles_modify [(s.create kind parent).1] _ s.shape hs.nodup
    (hs.mem_handles (hs.holder_live parent))
  intro bs
  rw [Branch.handlesAll_append]
  exact List.perm_append_comm

/-- A new widget stands below its parent, or else below the screen. -/
theorem WellFormed.holder_isContainer (hs : s.WellFormed) {parent : Handle}
    (hp : ∀ k, s.kind? parent = some k → k.isContainer = true) :
    ∀ k, s.kind? (s.holder parent) = some k → k.isContainer = true := by
  unfold holder
  split
  · exact hp
  · exact isContainer_of_kind? hs.top rfl

/-- Only the parent of the new widget gets something inside. -/
theorem WellFormed.bare_create (hs : s.WellFormed) (kind : WidgetKind) {parent : Handle}
    (hp : ∀ k, s.kind? parent = some k → k.isContainer = true) {c : WidgetKind}
    (hk : (s.create kind parent).2.kind? k = some c) (hc : c.isContainer = false) :
    (s.create kind parent).2.children k = [] := by
  have hkh : k ≠ s.holder parent := by
    rintro rfl
    rw [kind?, hs.widget?_create, if_neg (hs.create_ne kind parent (hs.holder_live parent))] at hk
    rw [hs.holder_isContainer hp c hk] at hc
    cases hc
  rw [hs.children_create kind parent hkh]
  by_cases hnew : k = (s.create kind parent).1
  · have hnone : s.branch? k = none :=
      Branch.find?_eq_none s.shape (hnew ▸ hs.create_not_mem kind parent)
    rw [children_eq, hnone]
    rfl
  · rw [kind?, hs.widget?_create, if_neg hnew] at hk
    exact hs.bare k c hk hc

theorem Sound.create (hs : s.Sound) (kind : WidgetKind) (parent : Handle) :
    (s.create kind parent).2.Sound where
  root := by
    rw [create_shape, Branch.handle_modify]
    exact hs.root
  nodup := by
    rw [(hs.handles_create kind parent).nodup_iff]
    exact List.nodup_cons.mpr ⟨hs.create_not_mem kind parent, hs.nodup⟩
  live k := by
    rw [(hs.handles_create kind parent).mem_iff, isLive, hs.widget?_create, List.mem_cons, hs.live]
    by_cases hk : k = (s.create kind parent).1
    · simp [hk]
    · simp [hk, isLive]
  freeLt := hs.allocate_free_lt _
  freeDead := hs.allocate_free_dead _
  freeNodup := hs.allocate_free_nodup _

theorem WellFormed.create (hs : s.WellFormed) (kind : WidgetKind) {parent : Handle}
    (hp : ∀ k, s.kind? parent = some k → k.isContainer = true) :
    (s.create kind parent).2.WellFormed where
  toSound := hs.toSound.create kind parent
  top := by
    rw [kind?, hs.widget?_create, if_neg (hs.create_ne kind parent hs.screen_live)]
    exact hs.top
  bare k c hk hc := hs.bare_create kind hp hk hc

/-! ## Moving a widget among its siblings -/

/-- The same widgets in the same places, and siblings in another order. -/
structure Reorders (s t : Screen) : Prop where
  slots : t.slots = s.slots
  free : t.free = s.free
  shape : ∃ p f, t.shape = s.shape.modify p f ∧ ∀ bs, (f bs).Perm bs

theorem Reorders.widget? (hr : Reorders s t) (k : Handle) : t.widget? k = s.widget? k := by
  rw [Screen.widget?, Screen.widget?, hr.slots]

theorem Sound.handles_reorder (hs : s.Sound) (hr : Reorders s t) :
    t.shape.handles.Perm s.shape.handles := by
  obtain ⟨p, f, ht, hf⟩ := hr.shape
  rw [ht]
  by_cases hp : p ∈ s.shape.handles
  · exact Branch.handles_modify [] (fun bs => Branch.handlesAll_perm (hf bs)) s.shape hs.nodup hp
  · rw [Branch.modify_of_not_mem s.shape hp]

theorem Sound.children_reorder (hs : s.Sound) (hr : Reorders s t)
    (hbare : s.children k = []) : t.children k = [] := by
  obtain ⟨p, f, ht, hf⟩ := hr.shape
  have hsearch (k : Handle) (bs : List Branch) (hn : (Branch.handlesAll bs).Nodup) :
      Branch.findAmong? k (f bs) = Branch.findAmong? k bs :=
    Branch.findAmong?_perm (hf bs).symm hn
  by_cases hkp : k = p
  · subst hkp
    rw [hs.children_modify_self ht (hsearch k)]
    rw [children_eq] at hbare
    cases hb : s.branch? k with
    | none => rfl
    | some b =>
      rw [hb] at hbare
      have hnil : b.children = [] := List.map_eq_nil_iff.mp hbare
      have hfnil : f b.children = [] := List.Perm.eq_nil (hnil ▸ hf b.children)
      simp [hfnil]
  · rw [hs.children_modify ht hkp fun bs hn => hsearch k bs hn]
    exact hbare

theorem Sound.reorder (hs : s.Sound) (hr : Reorders s t) : t.Sound where
  root := by
    obtain ⟨p, f, ht, -⟩ := hr.shape
    rw [ht, Branch.handle_modify]
    exact hs.root
  nodup := (hs.handles_reorder hr).nodup_iff.mpr hs.nodup
  live k := by
    rw [(hs.handles_reorder hr).mem_iff, hs.live, isLive_congr (hr.widget? k)]
  freeLt := by
    rw [hr.free, hr.slots]
    exact hs.freeLt
  freeDead i hi g := by
    rw [hr.widget?]
    exact hs.freeDead i (hr.free ▸ hi) g
  freeNodup := by
    rw [hr.free]
    exact hs.freeNodup

theorem WellFormed.reorder (hs : s.WellFormed) (hr : Reorders s t) : t.WellFormed where
  toSound := hs.toSound.reorder hr
  top := by
    rw [kind?_congr (hr.widget? _)]
    exact hs.top
  bare k c hk hc := by
    rw [kind?_congr (hr.widget? k)] at hk
    exact hs.children_reorder hr (hs.bare k c hk hc)

theorem moveTo_eq_or (s : Screen) (h : Handle) (i : Nat) :
    s.moveTo h i = s ∨ Reorders s (s.moveTo h i) := by
  unfold moveTo
  split
  · next p _ => exact .inr ⟨rfl, rfl, p, _, rfl, Branch.relocate_perm h i⟩
  · exact .inl rfl

theorem raise_eq_or (s : Screen) (h : Handle) : s.raise h = s ∨ Reorders s (s.raise h) := by
  unfold raise
  split
  · next p _ => exact .inr ⟨rfl, rfl, p, _, rfl, fun bs => Branch.relocate_perm h bs.length bs⟩
  · exact .inl rfl

theorem widget?_moveTo (s : Screen) (h k : Handle) (i : Nat) :
    (s.moveTo h i).widget? k = s.widget? k := by
  rcases moveTo_eq_or s h i with he | hr
  · rw [he]
  · exact hr.widget? k

theorem widget?_raise (s : Screen) (h k : Handle) : (s.raise h).widget? k = s.widget? k := by
  rcases raise_eq_or s h with he | hr
  · rw [he]
  · exact hr.widget? k

theorem Sound.moveTo (hs : s.Sound) (h : Handle) (i : Nat) : (s.moveTo h i).Sound := by
  rcases moveTo_eq_or s h i with he | hr
  · rwa [he]
  · exact hs.reorder hr

theorem Sound.raise (hs : s.Sound) (h : Handle) : (s.raise h).Sound := by
  rcases raise_eq_or s h with he | hr
  · rwa [he]
  · exact hs.reorder hr

theorem WellFormed.moveTo (hs : s.WellFormed) (h : Handle) (i : Nat) :
    (s.moveTo h i).WellFormed := by
  rcases moveTo_eq_or s h i with he | hr
  · rwa [he]
  · exact hs.reorder hr

theorem WellFormed.raise (hs : s.WellFormed) (h : Handle) : (s.raise h).WellFormed := by
  rcases raise_eq_or s h with he | hr
  · rwa [he]
  · exact hs.reorder hr

/-! ## Deleting a branch -/

theorem release_size (s : Screen) (h : Handle) : (s.release h).slots.size = s.slots.size := by
  simp [release]

theorem widget?_release (hl : s.isLive h = true) (k : Handle) :
    (s.release h).widget? k = if k = h then none else s.widget? k := by
  obtain ⟨w, hw⟩ := isLive_iff.mp hl
  have hslot := slot_of_widget? hw
  have hlt := slot_lt_of_isLive hl
  by_cases hk : k.slot = h.slot
  · have hfree : (s.release h).slots[k.slot]? = some ⟨h.generation, none⟩ := by
      rw [hk]
      exact Array.getElem?_setIfInBounds_self_of_lt hlt
    rw [widget?_eq hfree]
    by_cases hg : h.generation = k.generation
    · have he : k = h := by cases k; cases h; simp_all
      simp [he]
    · have he : k ≠ h := fun he => hg (he ▸ rfl)
      rw [if_neg he, if_neg hg, widget?_eq (by rw [hk]; exact hslot), if_neg hg]
  · have he : k ≠ h := fun he => hk (he ▸ rfl)
    rw [if_neg he, Screen.widget?, Screen.widget?, release]
    simp only [Array.getElem?_setIfInBounds_ne (Ne.symm hk)]

/-- Two live handles in one place are the same. -/
theorem eq_of_slot_eq (hh : s.isLive h = true) (hk : s.isLive k = true) (he : h.slot = k.slot) :
    h = k := by
  obtain ⟨w, hw⟩ := isLive_iff.mp hh
  obtain ⟨v, hv⟩ := isLive_iff.mp hk
  have hsh := slot_of_widget? hw
  have hsk := slot_of_widget? hv
  rw [he, hsk] at hsh
  have hg : k.generation = h.generation := congrArg Slot.generation (Option.some.inj hsh)
  cases h
  cases k
  simp_all

theorem releaseAll (hs : List Handle) (hn : hs.Nodup) (hl : ∀ h ∈ hs, s.isLive h = true) :
    (∀ k, (hs.foldl release s).widget? k = if k ∈ hs then none else s.widget? k) ∧
      (hs.foldl release s).free = (hs.map (·.slot)).reverse ++ s.free ∧
      (hs.foldl release s).slots.size = s.slots.size := by
  induction hs generalizing s with
  | nil => simp
  | cons h hs ih =>
    obtain ⟨hh, hn⟩ := List.nodup_cons.mp hn
    have hlh : s.isLive h = true := hl h (by simp)
    have hrest : ∀ k ∈ hs, (s.release h).isLive k = true := by
      intro k hk
      have hne : k ≠ h := fun he => hh (he ▸ hk)
      rw [isLive, widget?_release hlh, if_neg hne]
      exact hl k (by simp [hk])
    obtain ⟨hw, hf, hz⟩ := ih hn hrest
    refine ⟨fun k => ?_, ?_, ?_⟩
    · rw [List.foldl_cons, hw, widget?_release hlh]
      by_cases hk : k = h
      · simp [hk]
      · simp [hk]
    · rw [List.foldl_cons, hf]
      simp [release]
    · rw [List.foldl_cons, hz, release_size]

theorem delete_eq (hh : h ≠ Handle.screen) {b : Branch} (hb : s.branch? h = some b) :
    s.delete h = { b.levels.foldl release s with shape := s.shape.remove h } := by
  rw [delete, if_neg hh, hb]

theorem Sound.levels_live (hs : s.Sound) {b : Branch} (hb : s.branch? h = some b) :
    b.levels.Nodup ∧ ∀ k ∈ b.levels, s.isLive k = true := by
  obtain ⟨-, hsub⟩ := Branch.find?_eq_some s.shape hb
  refine ⟨b.levels_perm.nodup_iff.mpr (hsub.nodup hs.nodup), fun k hk => ?_⟩
  exact (hs.live k).mp (hsub.subset (b.levels_perm.mem_iff.mp hk))

theorem Sound.widget?_delete (hs : s.Sound) (hh : h ≠ Handle.screen) {b : Branch}
    (hb : s.branch? h = some b) (k : Handle) :
    (s.delete h).widget? k = if k ∈ b.handles then none else s.widget? k := by
  obtain ⟨hn, hl⟩ := hs.levels_live hb
  rw [delete_eq hh hb]
  show (b.levels.foldl release s).widget? k = _
  rw [(releaseAll b.levels hn hl).1]
  simp only [b.levels_perm.mem_iff]

theorem Sound.root_not_mem (hs : s.Sound) (hh : h ≠ Handle.screen) {b : Branch}
    (hb : s.branch? h = some b) : Handle.screen ∉ b.handles := by
  have hroot := hs.root
  have hn := hs.nodup
  rw [branch?] at hb
  generalize s.shape = root at hroot hn hb
  obtain ⟨r, bs⟩ := root
  have hr : r = Handle.screen := hroot
  rw [Branch.find?, if_neg (fun he => hh (he.symm.trans hr))] at hb
  intro hin
  exact (List.nodup_cons.mp hn).1 (hr ▸ (Branch.findAmong?_eq_some bs hb).2.subset hin)

/-- Every place is there before and after. -/
theorem Sound.size_delete (hs : s.Sound) (hh : h ≠ Handle.screen) {b : Branch}
    (hb : s.branch? h = some b) : (s.delete h).slots.size = s.slots.size := by
  obtain ⟨hn, hl⟩ := hs.levels_live hb
  obtain ⟨-, -, hsize⟩ := releaseAll b.levels hn hl
  rw [delete_eq hh hb]
  exact hsize

theorem Sound.free_delete (hs : s.Sound) (hh : h ≠ Handle.screen) {b : Branch}
    (hb : s.branch? h = some b) :
    (s.delete h).free = (b.levels.map (·.slot)).reverse ++ s.free := by
  obtain ⟨hn, hl⟩ := hs.levels_live hb
  obtain ⟨-, hfree, -⟩ := releaseAll b.levels hn hl
  rw [delete_eq hh hb]
  exact hfree

theorem Sound.mem_free_delete (hs : s.Sound) (hh : h ≠ Handle.screen) {b : Branch}
    (hb : s.branch? h = some b) {i : Nat} (hi : i ∈ (s.delete h).free) :
    (∃ k ∈ b.levels, k.slot = i) ∨ i ∈ s.free := by
  rw [hs.free_delete hh hb, List.mem_append, List.mem_reverse, List.mem_map] at hi
  exact hi

/-- A place that becomes free was not free before, and becomes free once. -/
theorem Sound.nodup_free_delete (hs : s.Sound) (hh : h ≠ Handle.screen) {b : Branch}
    (hb : s.branch? h = some b) : (s.delete h).free.Nodup := by
  obtain ⟨hn, hl⟩ := hs.levels_live hb
  rw [hs.free_delete hh hb]
  apply List.nodup_append.mpr
  refine ⟨?_, hs.freeNodup, ?_⟩
  · rw [List.nodup_reverse]
    apply List.Nodup.map_on _ hn
    intro k hk l hl' he
    exact eq_of_slot_eq (hl k hk) (hl l hl') he
  · intro i hi j hj hij
    rw [List.mem_reverse, List.mem_map] at hi
    obtain ⟨k, hk, rfl⟩ := hi
    have hdead := hs.freeDead j hj k.generation
    rw [← hij] at hdead
    have hlive := hl k hk
    rw [isLive, hdead] at hlive
    cases hlive

theorem Sound.freeDead_delete (hs : s.Sound) (hh : h ≠ Handle.screen) {b : Branch}
    (hb : s.branch? h = some b) {i : Nat} (hi : i ∈ (s.delete h).free) (g : Nat) :
    (s.delete h).widget? ⟨i, g⟩ = none := by
  obtain ⟨-, hl⟩ := hs.levels_live hb
  rw [hs.widget?_delete hh hb]
  split
  · rfl
  · next hnot =>
    rcases hs.mem_free_delete hh hb hi with ⟨k, hk, rfl⟩ | hi
    · by_contra hw
      have hlive : s.isLive ⟨k.slot, g⟩ = true := by
        rw [isLive]
        exact Option.isSome_iff_ne_none.mpr hw
      have he := eq_of_slot_eq hlive (hl k hk) rfl
      rw [he] at hnot
      exact hnot (b.levels_perm.mem_iff.mp hk)
    · exact hs.freeDead i hi g

theorem delete_shape (hh : h ≠ Handle.screen) {b : Branch} (hb : s.branch? h = some b) :
    (s.delete h).shape = s.shape.remove h := by
  rw [delete_eq hh hb]

/-- The tree falls into what is deleted and what stays. -/
theorem Sound.handles_delete (hs : s.Sound) (hh : h ≠ Handle.screen) {b : Branch}
    (hb : s.branch? h = some b) :
    s.shape.handles.Perm (b.handles ++ (s.delete h).shape.handles) := by
  have hroot : s.shape.handle ≠ h := by
    intro he
    exact hh (he.symm.trans hs.root)
  rw [delete_shape hh hb]
  exact Branch.handles_remove s.shape hs.nodup hroot hb

theorem Sound.live_delete (hs : s.Sound) (hh : h ≠ Handle.screen) {b : Branch}
    (hb : s.branch? h = some b) (k : Handle) :
    k ∈ (s.delete h).shape.handles ↔ (s.delete h).isLive k = true := by
  have hperm := hs.handles_delete hh hb
  have hlive := hs.live k
  rw [hperm.mem_iff, List.mem_append] at hlive
  rw [isLive, hs.widget?_delete hh hb]
  by_cases hkb : k ∈ b.handles
  · rw [if_pos hkb]
    have hapart := (List.nodup_append.mp (hperm.nodup_iff.mp hs.nodup)).2.2 k hkb k
    constructor
    · intro hk
      exact absurd rfl (hapart hk)
    · intro hn
      cases hn
  · rw [if_neg hkb]
    simpa [hkb, isLive] using hlive

/-- A widget that stays and has nothing inside gets nothing inside. -/
theorem Sound.children_delete (hs : s.Sound) (hh : h ≠ Handle.screen) {b : Branch}
    (hb : s.branch? h = some b) (hk : k ∉ b.handles) (hbare : s.children k = []) :
    (s.delete h).children k = [] := by
  have hkh : k ≠ h := by
    rintro rfl
    exact hk ((Branch.find?_eq_some _ hb).1 ▸ Branch.handle_mem_handles b)
  have hfind := Branch.find?_remove s.shape hs.nodup hkh
    fun c hc => Option.some.inj (hb.symm.trans hc) ▸ hk
  rw [children_eq] at hbare ⊢
  rw [branch?, delete_shape hh hb, hfind]
  rw [branch?] at hbare
  cases hf : Branch.find? k s.shape with
  | none => rfl
  | some d =>
    rw [hf] at hbare
    simp only [Option.map_some, Option.getD_some] at hbare ⊢
    rw [Branch.childHandles_remove, hbare]
    rfl

theorem delete_eq_or (s : Screen) (h : Handle) :
    s.delete h = s ∨ h ≠ Handle.screen ∧ ∃ b, s.branch? h = some b := by
  by_cases hh : h = Handle.screen
  · exact .inl (by rw [Screen.delete, if_pos hh])
  · cases hb : s.branch? h with
    | none => exact .inl (by rw [Screen.delete, if_neg hh, hb])
    | some b => exact .inr ⟨hh, b, rfl⟩

theorem Sound.delete (hs : s.Sound) (h : Handle) : (s.delete h).Sound := by
  rcases delete_eq_or s h with he | ⟨hh, b, hb⟩
  · rwa [he]
  · exact
      { root := by
          rw [delete_shape hh hb, Branch.handle_remove]
          exact hs.root
        nodup := by
          have hperm := hs.handles_delete hh hb
          exact (List.nodup_append.mp (hperm.nodup_iff.mp hs.nodup)).2.1
        live := hs.live_delete hh hb
        freeLt := by
          intro i hi
          rw [hs.size_delete hh hb]
          rcases hs.mem_free_delete hh hb hi with ⟨k, hk, rfl⟩ | hi
          · exact slot_lt_of_isLive ((hs.levels_live hb).2 k hk)
          · exact hs.freeLt i hi
        freeDead := fun i hi g => hs.freeDead_delete hh hb hi g
        freeNodup := hs.nodup_free_delete hh hb }

theorem WellFormed.delete (hs : s.WellFormed) (h : Handle) : (s.delete h).WellFormed := by
  rcases delete_eq_or s h with he | ⟨hh, b, hb⟩
  · rwa [he]
  · exact
      { toSound := hs.toSound.delete h
        top := by
          rw [kind?, hs.widget?_delete hh hb, if_neg (hs.root_not_mem hh hb)]
          exact hs.top
        bare := by
          intro k c hk hc
          rw [kind?, hs.widget?_delete hh hb] at hk
          split at hk
          · cases hk
          · next hkb => exact hs.children_delete hh hb hkb (hs.bare k c hk hc) }

theorem clean_keeps {P : Screen → Prop} (hP : ∀ s k, P s → P (s.delete k)) (hs : P s)
    (h : Handle) : P (s.clean h) := by
  unfold Screen.clean
  generalize s.children h = ks
  induction ks generalizing s with
  | nil => exact hs
  | cons k ks ih => exact ih (hP s k hs)

theorem Sound.clean (hs : s.Sound) (h : Handle) : (s.clean h).Sound :=
  clean_keeps (P := Sound) (fun _ k hs => hs.delete k) hs h

theorem WellFormed.clean (hs : s.WellFormed) (h : Handle) : (s.clean h).WellFormed :=
  clean_keeps (P := WellFormed) (fun _ k hs => hs.delete k) hs h

end ScreenMarkup.Screen
