import ScreenMarkup.Proofs.Screen.Change
import ScreenMarkup.Proofs.Screen.Renaming

/-!
# Copies of a screen

A copy of a screen has the same widgets under other handles, and the handles
that it will give to new widgets are the renamed ones too. So whatever is done
to both, with renamed handles, leaves a copy, and nothing that is read on the
way tells them apart.
-/

set_option autoImplicit false

namespace ScreenMarkup.Screen

variable {ρ : Renaming} {s t u v : Screen} {h k : Handle}

/-! ## The handles of new widgets -/

/-- The number of widgets that have lived in a place. -/
def generationAt (s : Screen) (slot : Nat) : Nat := (s.slots[slot]?.map (·.generation)).getD 0

/-- The handle of the widget that is made after `i` others, if none is deleted before. -/
def upcoming (s : Screen) (i : Nat) : Handle :=
  match s.free[i]? with
  | some slot => ⟨slot, s.generationAt slot + 1⟩
  | none => ⟨s.slots.size + (i - s.free.length), 1⟩

theorem upcoming_named (s : Screen) (i : Nat) : (s.upcoming i).generation ≠ 0 := by
  unfold upcoming
  split <;> exact Nat.succ_ne_zero _

theorem upcoming_congr (hfree : t.free = s.free) (hsize : t.slots.size = s.slots.size)
    (hgeneration : ∀ slot, t.generationAt slot = s.generationAt slot) (i : Nat) :
    t.upcoming i = s.upcoming i := by
  simp only [upcoming, hfree, hsize, hgeneration]

theorem allocate_fst (s : Screen) (w : Widget) : (s.allocate w).1 = s.upcoming 0 := by
  unfold allocate upcoming
  cases s.free <;> rfl

theorem create_fst (s : Screen) (kind : WidgetKind) (parent : Handle) :
    (s.create kind parent).1 = s.upcoming 0 := allocate_fst s (Widget.new kind)

/-- A new widget takes the first upcoming handle, and the others move up. -/
theorem Sound.upcoming_allocate (hs : s.Sound) (w : Widget) (i : Nat) :
    (s.allocate w).2.upcoming i = s.upcoming (i + 1) := by
  unfold allocate
  split
  · next hf => simp [upcoming, hf]; omega
  · next slot free hf =>
    have hn := hs.freeNodup
    rw [hf] at hn
    simp only [upcoming, hf, List.getElem?_cons_succ, List.length_cons, Array.size_setIfInBounds,
      Nat.add_sub_add_right]
    split
    · next j hj =>
      have hne : slot ≠ j := fun he => (List.nodup_cons.mp hn).1 (he ▸ List.mem_of_getElem? hj)
      simp only [generationAt, Array.getElem?_setIfInBounds_ne hne]
    · rfl

theorem generationAt_of_widget? {w : Widget} (hw : s.widget? h = some w) :
    s.generationAt h.slot = h.generation := by
  rw [generationAt, slot_of_widget? hw]
  rfl

theorem generationAt_modify (s : Screen) (h : Handle) (f : Widget → Widget) (slot : Nat) :
    (s.modify h f).generationAt slot = s.generationAt slot := by
  unfold modify
  split
  · next w hw =>
    by_cases hs : h.slot = slot
    · subst hs
      have hlt := slot_lt_of_isLive (isLive_iff.mpr ⟨w, hw⟩)
      rw [generationAt_of_widget? hw, generationAt, Array.getElem?_setIfInBounds_self_of_lt hlt]
      rfl
    · simp only [generationAt, Array.getElem?_setIfInBounds_ne hs]
  · rfl

theorem upcoming_modify (s : Screen) (h : Handle) (f : Widget → Widget) (i : Nat) :
    (s.modify h f).upcoming i = s.upcoming i :=
  upcoming_congr (modify_free f) (modify_size f) (generationAt_modify s h f) i

/-- The place of a deleted widget is taken next. -/
theorem upcoming_release (hl : s.isLive h = true) (hd : h.slot ∉ s.free) (i : Nat) :
    (s.release h).upcoming i = if i = 0 then h.next else s.upcoming (i - 1) := by
  have hlt := slot_lt_of_isLive hl
  cases i with
  | zero =>
    simp [upcoming, release, generationAt, Array.getElem?_setIfInBounds_self_of_lt hlt,
      Handle.next]
  | succ i =>
    simp only [upcoming, release, List.getElem?_cons_succ, List.length_cons,
      Array.size_setIfInBounds, Nat.add_sub_add_right, Nat.add_one_sub_one,
      if_neg (Nat.succ_ne_zero i)]
    split
    · next j hj =>
      have hne : h.slot ≠ j := fun he => hd (he ▸ List.mem_of_getElem? hj)
      simp only [generationAt, Array.getElem?_setIfInBounds_ne hne]
    · rfl

/-! ## Copies -/

/-- The places of `t` hold what those of `s` hold, and will be taken in the same order. -/
structure Tracks (ρ : Renaming) (s t : Screen) : Prop where
  widget : ∀ h, t.widget? (ρ h) = (s.widget? h).map (Widget.rename ρ)
  upcoming : ∀ i, t.upcoming i = ρ (s.upcoming i)
  named : ∀ h, s.isLive h = true → h.generation ≠ 0
  dead : ∀ i ∈ s.free, ∀ g, s.widget? ⟨i, g⟩ = none
  dead' : ∀ i ∈ t.free, ∀ g, t.widget? ⟨i, g⟩ = none

structure Copies (ρ : Renaming) (s t : Screen) : Prop extends Tracks ρ s t where
  sound : s.Sound
  sound' : t.Sound
  shape : t.shape = s.shape.rename ρ

theorem Tracks.isLive (ht : Tracks ρ s t) (h : Handle) : t.isLive (ρ h) = s.isLive h := by
  rw [Screen.isLive, Screen.isLive, ht.widget, Option.isSome_map]

theorem not_mem_free (hd : ∀ i ∈ s.free, ∀ g, s.widget? ⟨i, g⟩ = none)
    (hl : s.isLive h = true) : h.slot ∉ s.free := by
  intro hf
  rw [Screen.isLive, hd h.slot hf h.generation] at hl
  cases hl

theorem Tracks.release (ht : Tracks ρ s t) (hl : s.isLive h = true) :
    Tracks ρ (s.release h) (t.release (ρ h)) := by
  have hl' : t.isLive (ρ h) = true := (ht.isLive h).trans hl
  have hdead {s : Screen} {h : Handle} (hl : s.isLive h = true)
      (hd : ∀ i ∈ s.free, ∀ g, s.widget? ⟨i, g⟩ = none) :
      ∀ i ∈ (s.release h).free, ∀ g, (s.release h).widget? ⟨i, g⟩ = none := by
    intro i hi g
    rw [widget?_release hl]
    split
    · rfl
    · next hne =>
      rcases List.mem_cons.mp hi with rfl | hi
      · by_contra hw
        exact hne (eq_of_slot_eq (Option.isSome_iff_ne_none.mpr hw) hl rfl)
      · exact hd i hi g
  refine ⟨fun k => ?_, fun i => ?_, fun k hk => ?_, hdead hl ht.dead, hdead hl' ht.dead'⟩
  · simp only [widget?_release hl, widget?_release hl', ρ.eq_iff, ht.widget]
    split <;> rfl
  · rw [upcoming_release hl (not_mem_free ht.dead hl),
      upcoming_release hl' (not_mem_free ht.dead' hl'), ht.upcoming, ← ρ.next h (ht.named h hl)]
    split <;> rfl
  · apply ht.named
    rw [Screen.isLive, widget?_release hl] at hk
    split at hk
    · cases hk
    · exact hk

theorem Tracks.releaseAll (ht : Tracks ρ s t) {hs : List Handle} (hn : hs.Nodup)
    (hl : ∀ h ∈ hs, s.isLive h = true) :
    Tracks ρ (hs.foldl Screen.release s) ((hs.map ρ).foldl Screen.release t) := by
  induction hs generalizing s t with
  | nil => exact ht
  | cons h hs ih =>
    obtain ⟨hh, hn⟩ := List.nodup_cons.mp hn
    have hlh : s.isLive h = true := hl h List.mem_cons_self
    refine ih (ht.release hlh) hn fun k hk => ?_
    have hne : k ≠ h := fun he => hh (he ▸ hk)
    rw [Screen.isLive, widget?_release hlh, if_neg hne]
    exact hl k (List.mem_cons_of_mem _ hk)

namespace Copies

/-! ### What is read -/

theorem rect (hc : Copies ρ s t) (h : Handle) : t.rect (ρ h) = s.rect h := by
  rw [Screen.rect, Screen.rect, hc.widget, Option.map_map]
  rfl

theorem style (hc : Copies ρ s t) (h : Handle) : t.style (ρ h) = s.style h := by
  rw [Screen.style, Screen.style, hc.widget, Option.map_map]
  rfl

theorem branch? (hc : Copies ρ s t) (h : Handle) :
    t.branch? (ρ h) = (s.branch? h).map (Branch.rename ρ) := by
  rw [Screen.branch?, Screen.branch?, hc.shape, Branch.find?_rename]

theorem children (hc : Copies ρ s t) (h : Handle) :
    t.children (ρ h) = (s.children h).map ρ := by
  rw [children_eq, children_eq, hc.branch?]
  cases s.branch? h with
  | none => rfl
  | some b => exact Branch.childHandles_rename b

theorem parent? (hc : Copies ρ s t) (h : Handle) : t.parent? (ρ h) = (s.parent? h).map ρ := by
  rw [Screen.parent?, Screen.parent?, ancestors, ancestors, hc.shape, Branch.above?_rename]
  cases s.shape.above? h with
  | none => rfl
  | some as => exact List.head?_map

theorem parentSize? (hc : Copies ρ s t) (h : Handle) :
    t.parentSize? (ρ h) = s.parentSize? h := by
  rw [Screen.parentSize?, Screen.parentSize?, hc.parent?, Option.map_map]
  congr 1
  funext p
  exact congrArg Rect.size (hc.rect p)

theorem holder (hc : Copies ρ s t) (p : Handle) : t.holder (ρ p) = ρ (s.holder p) := by
  rw [Screen.holder, Screen.holder, hc.isLive]
  split
  · rfl
  · exact ρ.screen.symm

/-! ### What is written -/

/-- Changes of a widget that do not look at handles correspond to themselves. -/
theorem modify (hc : Copies ρ s t) (h : Handle) {f g : Widget → Widget}
    (hfg : ∀ w, g (w.rename ρ) = (f w).rename ρ) :
    Copies ρ (s.modify h f) (t.modify (ρ h) g) := by
  have hsound {s : Screen} (hs : s.Sound) (h : Handle) (f : Widget → Widget) :
      (s.modify h f).Sound :=
    hs.touch (touches_modify (P := fun _ _ => True) (h := h) (fun _ => trivial) fun _ => trivial)
  have hs := hsound hc.sound h f
  have ht := hsound hc.sound' (ρ h) g
  refine ⟨⟨fun k => ?_, fun i => ?_, fun k hk => ?_, hs.freeDead, ht.freeDead⟩, hs, ht, ?_⟩
  · simp only [widget?_modify, ρ.eq_iff, hc.widget]
    split
    · rw [Option.map_map, Option.map_map]
      congr 1
      funext w
      exact hfg w
    · rfl
  · rw [upcoming_modify, upcoming_modify, hc.upcoming]
  · apply hc.named
    rw [Screen.isLive, widget?_modify] at hk
    split at hk
    · next he =>
      rw [Option.isSome_map] at hk
      exact he ▸ hk
    · exact hk
  · rw [modify_shape, modify_shape, hc.shape]

theorem create (hc : Copies ρ s t) (kind : WidgetKind) (parent : Handle) :
    (t.create kind (ρ parent)).1 = ρ (s.create kind parent).1 ∧
      Copies ρ (s.create kind parent).2 (t.create kind (ρ parent)).2 := by
  have hfst : (t.create kind (ρ parent)).1 = ρ (s.create kind parent).1 := by
    rw [create_fst, create_fst, hc.upcoming]
  have hs := hc.sound.create kind parent
  have ht := hc.sound'.create kind (ρ parent)
  refine ⟨hfst, ⟨fun k => ?_, fun i => ?_, fun k hk => ?_, hs.freeDead, ht.freeDead⟩, hs, ht, ?_⟩
  · simp only [hc.sound.widget?_create, hc.sound'.widget?_create, hfst, ρ.eq_iff, hc.widget]
    split <;> rfl
  · show (t.allocate (Widget.new kind)).2.upcoming i =
      ρ ((s.allocate (Widget.new kind)).2.upcoming i)
    rw [hc.sound.upcoming_allocate, hc.sound'.upcoming_allocate, hc.upcoming]
  · rw [Screen.isLive, hc.sound.widget?_create] at hk
    split at hk
    · next he =>
      rw [he, create_fst]
      exact upcoming_named s 0
    · exact hc.named k hk
  · rw [create_shape, create_shape, hfst, hc.holder, hc.shape]
    apply Branch.modify_rename
    intro bs
    rw [Branch.renameAll_eq, Branch.renameAll_eq, List.map_append]
    rfl

theorem reorder (hc : Copies ρ s t) (hu : Reorders s u) (hv : Reorders t v)
    (hshape : v.shape = u.shape.rename ρ) : Copies ρ u v := by
  have hs := hc.sound.reorder hu
  have ht := hc.sound'.reorder hv
  have hupcoming {s u : Screen} (hu : Reorders s u) (i : Nat) : u.upcoming i = s.upcoming i :=
    upcoming_congr hu.free (by rw [hu.slots]) (fun slot => by rw [generationAt, hu.slots]; rfl) i
  refine ⟨⟨fun k => ?_, fun i => ?_, fun k hk => ?_, hs.freeDead, ht.freeDead⟩, hs, ht, hshape⟩
  · rw [hu.widget?, hv.widget?, hc.widget]
  · rw [hupcoming hu, hupcoming hv, hc.upcoming]
  · exact hc.named k (by rwa [isLive_congr (hu.widget? k)] at hk)

theorem relocate (hc : Copies ρ s t) {p : Handle} {F G : List Branch → List Branch}
    (hF : ∀ bs, (F bs).Perm bs) (hG : ∀ bs, (G bs).Perm bs)
    (hFG : ∀ bs, G (Branch.renameAll ρ bs) = Branch.renameAll ρ (F bs)) :
    Copies ρ { s with shape := s.shape.modify p F }
      { t with shape := t.shape.modify (ρ p) G } := by
  refine hc.reorder ⟨rfl, rfl, p, F, rfl, hF⟩ ⟨rfl, rfl, ρ p, G, rfl, hG⟩ ?_
  show t.shape.modify (ρ p) G = (s.shape.modify p F).rename ρ
  rw [hc.shape]
  exact Branch.modify_rename ρ hFG s.shape

theorem moveTo (hc : Copies ρ s t) (h : Handle) (i : Nat) :
    Copies ρ (s.moveTo h i) (t.moveTo (ρ h) i) := by
  rw [Screen.moveTo, Screen.moveTo, hc.parent?]
  cases s.parent? h with
  | none => exact hc
  | some p =>
    exact hc.relocate (Branch.relocate_perm h i) (Branch.relocate_perm (ρ h) i)
      (Branch.relocate_rename ρ i)

theorem raise (hc : Copies ρ s t) (h : Handle) : Copies ρ (s.raise h) (t.raise (ρ h)) := by
  rw [Screen.raise, Screen.raise, hc.parent?]
  cases s.parent? h with
  | none => exact hc
  | some p =>
    refine hc.relocate (fun bs => Branch.relocate_perm h bs.length bs)
      (fun bs => Branch.relocate_perm (ρ h) bs.length bs) fun bs => ?_
    rw [Branch.renameAll_eq, List.length_map, ← Branch.renameAll_eq]
    exact Branch.relocate_rename ρ bs.length bs

theorem delete (hc : Copies ρ s t) (h : Handle) : Copies ρ (s.delete h) (t.delete (ρ h)) := by
  by_cases hh : h = Handle.screen
  · rw [Screen.delete, Screen.delete, if_pos hh, if_pos (ρ.eq_screen_iff.mpr hh)]
    exact hc
  · have hh' : ρ h ≠ Handle.screen := fun he => hh (ρ.eq_screen_iff.mp he)
    have hb' := hc.branch? h
    cases hb : s.branch? h with
    | none =>
      rw [hb, Option.map_none] at hb'
      rw [Screen.delete, Screen.delete, if_neg hh, if_neg hh', hb, hb']
      exact hc
    | some b =>
      rw [hb, Option.map_some] at hb'
      obtain ⟨hn, hl⟩ := hc.sound.levels_live hb
      have htracks := hc.toTracks.releaseAll hn hl
      rw [← Branch.levels_rename] at htracks
      have hs := hc.sound.delete h
      have ht := hc.sound'.delete (ρ h)
      rw [delete_eq hh hb] at hs ⊢
      rw [delete_eq hh' hb'] at ht ⊢
      refine ⟨⟨htracks.widget, htracks.upcoming, htracks.named, hs.freeDead, ht.freeDead⟩, hs, ht,
        ?_⟩
      show t.shape.remove (ρ h) = (s.shape.remove h).rename ρ
      rw [hc.shape]
      exact Branch.remove_rename ρ s.shape

end Copies
end ScreenMarkup.Screen
