import ScreenMarkup.Proofs.Screen.Shape
import ScreenMarkup.Screen.Basic

/-!
# Well-formed screens

A screen is sound when its tree and its places name the same widgets: each
live widget stands in the tree exactly once, and a free place holds none.
Every operation keeps this, and so a new widget gets a handle that has named
nothing before. A screen is well formed when, besides, only containers contain
anything.
-/

set_option autoImplicit false

namespace ScreenMarkup

/-- Widgets of the other kinds never contain anything. -/
def WidgetKind.isContainer : WidgetKind → Bool
  | .screen | .page | .tileView | .tile | .indicator | .button | .tabView | .tab => true
  | _ => false

namespace Screen

variable {s t u : Screen} {h k : Handle}

/-- The tree and the places name the same widgets. -/
structure Sound (s : Screen) : Prop where
  root : s.shape.handle = Handle.screen
  nodup : s.shape.handles.Nodup
  live : ∀ h, h ∈ s.shape.handles ↔ s.isLive h = true
  freeLt : ∀ i ∈ s.free, i < s.slots.size
  freeDead : ∀ i ∈ s.free, ∀ g, s.widget? ⟨i, g⟩ = none
  freeNodup : s.free.Nodup

structure WellFormed (s : Screen) : Prop extends Sound s where
  top : s.kind? Handle.screen = some .screen
  bare : ∀ h k, s.kind? h = some k → k.isContainer = false → s.children h = []

/-! ## Single widgets -/

theorem isLive_iff : s.isLive h = true ↔ ∃ w, s.widget? h = some w := Option.isSome_iff_exists

theorem isLive_of_kind? {k : WidgetKind} (hk : s.kind? h = some k) : s.isLive h = true := by
  obtain ⟨w, hw, -⟩ := Option.map_eq_some_iff.mp hk
  exact isLive_iff.mpr ⟨w, hw⟩

theorem kind?_of_isLive (hl : s.isLive h = true) : ∃ k, s.kind? h = some k := by
  obtain ⟨w, hw⟩ := isLive_iff.mp hl
  exact ⟨w.kind, by rw [kind?, hw, Option.map_some]⟩

theorem isContainer_of_kind? {k : WidgetKind} (hk : s.kind? h = some k)
    (hc : k.isContainer = true) : ∀ c, s.kind? h = some c → c.isContainer = true := by
  intro c hkc
  rw [hk] at hkc
  cases hkc
  exact hc

theorem isLive_congr (hw : t.widget? h = s.widget? h) : t.isLive h = s.isLive h := by
  rw [isLive, isLive, hw]

theorem kind?_congr (hw : t.widget? h = s.widget? h) : t.kind? h = s.kind? h := by
  rw [kind?, kind?, hw]

theorem widget?_eq {slot : Slot} (hs : s.slots[h.slot]? = some slot) :
    s.widget? h = if slot.generation = h.generation then slot.widget else none := by
  rw [widget?, hs]

theorem widget?_eq_none_of_size_le (hs : s.slots.size ≤ h.slot) : s.widget? h = none := by
  rw [widget?, Array.getElem?_eq_none hs]

theorem slot_lt_of_isLive (hl : s.isLive h = true) : h.slot < s.slots.size := by
  by_contra hs
  rw [isLive, widget?_eq_none_of_size_le (by omega)] at hl
  simp at hl

/-- The generation of a live handle is that of its place. -/
theorem slot_of_widget? {w : Widget} (hw : s.widget? h = some w) :
    s.slots[h.slot]? = some ⟨h.generation, some w⟩ := by
  cases hs : s.slots[h.slot]? with
  | none => simp [widget?, hs] at hw
  | some slot =>
    rw [widget?_eq hs] at hw
    split at hw
    · next hg =>
      cases slot
      simp_all
    · cases hw

theorem widget?_modify (s : Screen) (h k : Handle) (f : Widget → Widget) :
    (s.modify h f).widget? k = if k = h then (s.widget? h).map f else s.widget? k := by
  unfold modify
  cases hw : s.widget? h with
  | none =>
    by_cases hk : k = h
    · rw [if_pos hk, hk]
      exact hw
    · rw [if_neg hk]
  | some w =>
    have hslot := slot_of_widget? hw
    have hlt : h.slot < s.slots.size := slot_lt_of_isLive (isLive_iff.mpr ⟨w, hw⟩)
    by_cases hs : k.slot = h.slot
    · rw [widget?_eq (by rw [hs]; exact Array.getElem?_setIfInBounds_self_of_lt hlt),
        widget?_eq (h := k) (by rw [hs]; exact hslot)]
      by_cases hg : h.generation = k.generation
      · have hk : k = h := by cases k; cases h; simp_all
        simp [hk]
      · have hk : k ≠ h := fun he => hg (he ▸ rfl)
        simp [hk, hg]
    · have hk : k ≠ h := fun he => hs (he ▸ rfl)
      rw [if_neg hk, widget?, widget?]
      simp only [Array.getElem?_setIfInBounds_ne (Ne.symm hs)]

@[simp] theorem modify_shape (f : Widget → Widget) : (s.modify h f).shape = s.shape := by
  unfold modify
  split <;> rfl

@[simp] theorem modify_free (f : Widget → Widget) : (s.modify h f).free = s.free := by
  unfold modify
  split <;> rfl

@[simp] theorem modify_size (f : Widget → Widget) :
    (s.modify h f).slots.size = s.slots.size := by
  unfold modify
  split <;> simp

/-! ## New widgets -/

theorem allocate_shape (w : Widget) : (s.allocate w).2.shape = s.shape := by
  unfold allocate
  split <;> rfl

theorem Sound.allocate_fresh (hs : s.Sound) (w : Widget) :
    s.widget? (s.allocate w).1 = none := by
  unfold allocate
  split
  · exact widget?_eq_none_of_size_le (Nat.le_refl _)
  · next i free hf => exact hs.freeDead i (by simp [hf]) _

theorem Sound.widget?_allocate (hs : s.Sound) (w : Widget) (k : Handle) :
    (s.allocate w).2.widget? k = if k = (s.allocate w).1 then some w else s.widget? k := by
  unfold allocate
  split
  · simp only [widget?]
    by_cases hlt : k.slot < s.slots.size
    · have hk : k ≠ ⟨s.slots.size, 1⟩ := by
        rintro rfl
        exact Nat.lt_irrefl _ hlt
      rw [if_neg hk, Array.getElem?_push_lt hlt, Array.getElem?_eq_getElem hlt]
    · by_cases he : k.slot = s.slots.size
      · rw [he, Array.getElem?_push_size, Array.getElem?_eq_none (Nat.le_refl _)]
        by_cases hg : k.generation = 1
        · have hk : k = ⟨s.slots.size, 1⟩ := by cases k; simp_all
          simp [hk]
        · have hk : k ≠ ⟨s.slots.size, 1⟩ := fun hk => hg (hk ▸ rfl)
          simp [hk, Ne.symm hg]
      · have hk : k ≠ ⟨s.slots.size, 1⟩ := fun hk => he (hk ▸ rfl)
        have hle : (s.slots.push ⟨1, some w⟩).size ≤ k.slot := by
          rw [Array.size_push]
          omega
        rw [if_neg hk, Array.getElem?_eq_none hle, Array.getElem?_eq_none (by omega)]
  · next i free hf =>
    have hlt : i < s.slots.size := hs.freeLt i (by simp [hf])
    have hdead := hs.freeDead i (by simp [hf])
    by_cases hi : k.slot = i
    · subst hi
      rw [hdead k.generation, widget?_eq (Array.getElem?_setIfInBounds_self_of_lt hlt)]
      by_cases hg : k.generation = (Option.map (·.generation) s.slots[k.slot]?).getD 0 + 1
      · have hk : k = ⟨k.slot, (Option.map (·.generation) s.slots[k.slot]?).getD 0 + 1⟩ := by
          rw [← hg]
        rw [if_pos hg.symm, if_pos hk]
      · have hk : k ≠ ⟨k.slot, (Option.map (·.generation) s.slots[k.slot]?).getD 0 + 1⟩ :=
          fun hk => hg (congrArg Handle.generation hk)
        rw [if_neg (Ne.symm hg), if_neg hk]
    · have hk : k ≠ ⟨i, (Option.map (·.generation) s.slots[i]?).getD 0 + 1⟩ :=
        fun hk => hi (congrArg Handle.slot hk)
      rw [if_neg hk, widget?, widget?]
      simp only [Array.getElem?_setIfInBounds_ne (Ne.symm hi)]

theorem Sound.allocate_free_lt (hs : s.Sound) (w : Widget) :
    ∀ i ∈ (s.allocate w).2.free, i < (s.allocate w).2.slots.size := by
  unfold allocate
  split
  · next hf => simp [hf]
  · next i free hf =>
    intro j hj
    rw [Array.size_setIfInBounds]
    exact hs.freeLt j (by simp [hf, hj])

theorem Sound.allocate_free_nodup (hs : s.Sound) (w : Widget) :
    (s.allocate w).2.free.Nodup := by
  have hn := hs.freeNodup
  unfold allocate
  split
  · next hf => simp [hf]
  · next i free hf =>
    rw [hf] at hn
    exact (List.nodup_cons.mp hn).2

theorem Sound.allocate_free_dead (hs : s.Sound) (w : Widget) :
    ∀ i ∈ (s.allocate w).2.free, ∀ g, (s.allocate w).2.widget? ⟨i, g⟩ = none := by
  intro i hi g
  have hne : (⟨i, g⟩ : Handle) ≠ (s.allocate w).1 ∧ i ∈ s.free := by
    have hn := hs.freeNodup
    unfold allocate at hi ⊢
    split at hi
    · next hf => simp [hf] at hi
    · next j free hf =>
      rw [hf] at hn
      refine ⟨fun he => ?_, by simpa [hf] using Or.inr hi⟩
      have hij : i = j := congrArg Handle.slot he
      exact (List.nodup_cons.mp hn).1 (hij ▸ hi)
  rw [hs.widget?_allocate, if_neg hne.1]
  exact hs.freeDead i hne.2 g

/-! ## A new screen -/

/-- A new screen is one widget. -/
theorem isLive_new (size : Size) (h : Handle) :
    (new size).isLive h = true ↔ h = Handle.screen := by
  obtain ⟨slot, generation⟩ := h
  cases slot with
  | zero =>
    by_cases hg : 1 = generation
    · subst hg
      exact iff_of_true rfl rfl
    · have hdead : (new size).widget? ⟨0, generation⟩ = none := if_neg hg
      rw [isLive, hdead]
      refine iff_of_false (fun h => by cases h) fun he => hg ?_
      exact (congrArg Handle.generation he).symm
  | succ i =>
    have hdead : (new size).widget? ⟨i + 1, generation⟩ = none :=
      widget?_eq_none_of_size_le (Nat.le_add_left 1 i)
    rw [isLive, hdead]
    refine iff_of_false (fun h => by cases h) fun he => ?_
    cases congrArg Handle.slot he

theorem sound_new (size : Size) : (new size).Sound where
  root := rfl
  nodup := List.nodup_singleton _
  live h := by
    rw [isLive_new]
    exact List.mem_singleton
  freeLt i hi := by cases hi
  freeDead i hi := by cases hi
  freeNodup := List.nodup_nil

theorem wellFormed_new (size : Size) : (new size).WellFormed where
  toSound := sound_new size
  top := rfl
  bare h k hk _ := by
    rw [(isLive_new size h).mp (isLive_of_kind? hk)]
    rfl

end Screen
end ScreenMarkup
