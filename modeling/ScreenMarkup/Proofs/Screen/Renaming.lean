import Mathlib.Data.List.Nodup
import ScreenMarkup.Proofs.Screen.Shape
import ScreenMarkup.Screen.Widget

/-!
# Renaming handles

A renaming sends handles to handles. It keeps apart what it finds apart, and
it keeps the order in which widgets have lived in one place, so whatever is
asked about handles is answered alike before and after it. Searching and
changing a branch commute with renaming it.
-/

set_option autoImplicit false

namespace ScreenMarkup

namespace Handle

/-- The handle of the next widget in the same place. -/
def next (h : Handle) : Handle := ⟨h.slot, h.generation + 1⟩

end Handle

structure Renaming where
  map : Handle → Handle
  slot : ∀ h k, (map h).slot = (map k).slot ↔ h.slot = k.slot
  earlier : ∀ h k, h.slot = k.slot →
    ((map h).generation < (map k).generation ↔ h.generation < k.generation)
  unnamed : ∀ h, (map h).generation = 0 ↔ h.generation = 0
  next : ∀ h, h.generation ≠ 0 → map h.next = (map h).next
  screen : map Handle.screen = Handle.screen

namespace Renaming

instance : CoeFun Renaming fun _ => Handle → Handle := ⟨Renaming.map⟩

variable (ρ : Renaming)

theorem injective : Function.Injective ρ := by
  intro h k he
  have hs : h.slot = k.slot := (ρ.slot h k).mp (by rw [he])
  have hlt : ¬h.generation < k.generation := by
    rw [← ρ.earlier h k hs, he]
    exact Nat.lt_irrefl _
  have hgt : ¬k.generation < h.generation := by
    rw [← ρ.earlier k h hs.symm, he]
    exact Nat.lt_irrefl _
  cases h
  cases k
  simp only [Handle.mk.injEq] at hs ⊢
  exact ⟨hs, by simp only at hlt hgt; omega⟩

@[simp] theorem eq_iff {h k : Handle} : ρ h = ρ k ↔ h = k := ρ.injective.eq_iff

theorem eq_screen_iff {h : Handle} : ρ h = Handle.screen ↔ h = Handle.screen :=
  ⟨fun he => ρ.injective (he.trans ρ.screen.symm), fun he => he ▸ ρ.screen⟩

/-- Two live handles in one place are told apart by their generations. -/
theorem generation_iff {h k : Handle} (hs : h.slot = k.slot) :
    (ρ h).generation = (ρ k).generation ↔ h.generation = k.generation := by
  have hlt := ρ.earlier h k hs
  have hgt := ρ.earlier k h hs.symm
  omega

end Renaming

def Widget.rename (f : Handle → Handle) (w : Widget) : Widget :=
  { w with keyboardTarget := w.keyboardTarget.map f, activeTile := w.activeTile.map f }

theorem Widget.rename_rename (f g : Handle → Handle) (w : Widget) :
    (w.rename f).rename g = w.rename (g ∘ f) := by
  simp only [Widget.rename, Option.map_map]

namespace Branch

mutual
def rename (f : Handle → Handle) : Branch → Branch
  | node h bs => node (f h) (renameAll f bs)
def renameAll (f : Handle → Handle) : List Branch → List Branch
  | [] => []
  | b :: bs => rename f b :: renameAll f bs
end

variable {f : Handle → Handle}

mutual
theorem rename_rename (g : Handle → Handle) (b : Branch) :
    (b.rename f).rename g = b.rename (g ∘ f) := by
  obtain ⟨k, bs⟩ := b
  rw [rename, rename, rename, renameAll_renameAll g bs, Function.comp_apply]
theorem renameAll_renameAll (g : Handle → Handle) (bs : List Branch) :
    renameAll g (renameAll f bs) = renameAll (g ∘ f) bs := by
  match bs with
  | [] => rfl
  | b :: bs => rw [renameAll, renameAll, renameAll, rename_rename g b, renameAll_renameAll g bs]
end

theorem renameAll_eq (bs : List Branch) : renameAll f bs = bs.map (rename f) := by
  induction bs with
  | nil => rfl
  | cons b bs ih => rw [renameAll, ih, List.map_cons]

@[simp] theorem handle_rename (b : Branch) : (b.rename f).handle = f b.handle := by
  cases b
  rfl

theorem children_rename (b : Branch) : (b.rename f).children = b.children.map (rename f) := by
  obtain ⟨k, bs⟩ := b
  exact renameAll_eq bs

theorem childHandles_rename (b : Branch) :
    (b.rename f).childHandles = b.childHandles.map f := by
  rw [childHandles, childHandles, children_rename, List.map_map, List.map_map]
  exact List.map_congr_left fun c _ => handle_rename c

mutual
theorem depths_rename (b : Branch) (d : Nat) :
    (b.rename f).depths d = (b.depths d).map fun e => (e.1, f e.2) := by
  obtain ⟨k, bs⟩ := b
  rw [rename, depths, depths, depthsAll_rename bs, List.map_cons]
theorem depthsAll_rename (bs : List Branch) (d : Nat) :
    depthsAll d (renameAll f bs) = (depthsAll d bs).map fun e => (e.1, f e.2) := by
  match bs with
  | [] => rfl
  | b :: bs =>
    rw [renameAll, depthsAll, depthsAll, depths_rename b, depthsAll_rename bs, List.map_append]
end

theorem handles_rename (b : Branch) : (b.rename f).handles = b.handles.map f := by
  rw [← depths_map_snd _ 0, ← depths_map_snd _ 0, depths_rename, List.map_map, List.map_map]
  rfl

/-- The order of the levels does not look at the handles. -/
theorem levels_rename (b : Branch) : (b.rename f).levels = b.levels.map f := by
  rw [levels, levels, depths_rename, List.map_map,
    ← List.map_mergeSort (r := fun a c => decide (a.1 ≤ c.1)) (fun _ _ _ _ => rfl), List.map_map]
  rfl

section Injective

variable (ρ : Renaming) {h k : Handle}

mutual
theorem find?_rename (b : Branch) : find? (ρ k) (b.rename ρ) = (find? k b).map (rename ρ) := by
  obtain ⟨c, bs⟩ := b
  rw [rename, find?, find?, findAmong?_rename bs]
  by_cases hc : c = k
  · rw [if_pos hc, if_pos (congrArg ρ hc), Option.map_some, rename]
  · rw [if_neg hc, if_neg fun he => hc (ρ.injective he)]
theorem findAmong?_rename (bs : List Branch) :
    findAmong? (ρ k) (renameAll ρ bs) = (findAmong? k bs).map (rename ρ) := by
  match bs with
  | [] => rfl
  | b :: bs =>
    rw [renameAll, findAmong?, findAmong?, find?_rename b, findAmong?_rename bs, Option.map_or]
end

mutual
theorem above?_rename (b : Branch) :
    above? (ρ k) (b.rename ρ) = (above? k b).map (List.map ρ) := by
  obtain ⟨c, bs⟩ := b
  rw [rename, above?, above?, aboveAmong?_rename bs]
  by_cases hc : c = k
  · rw [if_pos hc, if_pos (congrArg ρ hc)]
    rfl
  · rw [if_neg hc, if_neg fun he => hc (ρ.injective he), Option.map_map, Option.map_map]
    congr 1
    funext as
    exact (@List.map_append _ _ ρ as [c]).symm
theorem aboveAmong?_rename (bs : List Branch) :
    aboveAmong? (ρ k) (renameAll ρ bs) = (aboveAmong? k bs).map (List.map ρ) := by
  match bs with
  | [] => rfl
  | b :: bs =>
    rw [renameAll, aboveAmong?, aboveAmong?, above?_rename b, aboveAmong?_rename bs,
      Option.map_or]
end

mutual
/-- Changes that correspond to each other commute with the renaming. -/
theorem modify_rename {F G : List Branch → List Branch}
    (hG : ∀ bs, G (renameAll ρ bs) = renameAll ρ (F bs)) (b : Branch) :
    modify (ρ h) G (b.rename ρ) = (modify h F b).rename ρ := by
  obtain ⟨c, bs⟩ := b
  rw [rename, modify, modify, modifyAll_rename hG bs, rename]
  by_cases hc : c = h
  · rw [if_pos hc, if_pos (congrArg ρ hc), hG]
  · rw [if_neg hc, if_neg fun he => hc (ρ.injective he)]
theorem modifyAll_rename {F G : List Branch → List Branch}
    (hG : ∀ bs, G (renameAll ρ bs) = renameAll ρ (F bs)) (bs : List Branch) :
    modifyAll (ρ h) G (renameAll ρ bs) = renameAll ρ (modifyAll h F bs) := by
  match bs with
  | [] => rfl
  | b :: bs =>
    rw [renameAll, modifyAll, modifyAll, renameAll, modify_rename hG b, modifyAll_rename hG bs]
end

mutual
theorem remove_rename (b : Branch) : remove (ρ h) (b.rename ρ) = (remove h b).rename ρ := by
  obtain ⟨c, bs⟩ := b
  rw [rename, remove, remove, rename, removeAll_rename bs]
theorem removeAll_rename (bs : List Branch) :
    removeAll (ρ h) (renameAll ρ bs) = renameAll ρ (removeAll h bs) := by
  match bs with
  | [] => rfl
  | b :: bs =>
    rw [renameAll, removeAll, removeAll, handle_rename]
    by_cases hb : b.handle = h
    · rw [if_pos hb, if_pos (congrArg ρ hb), removeAll_rename bs]
    · rw [if_neg hb, if_neg fun he => hb (ρ.injective he), renameAll, remove_rename b,
        removeAll_rename bs]
end

theorem relocate_rename (i : Nat) (bs : List Branch) :
    relocate (ρ h) i (renameAll ρ bs) = renameAll ρ (relocate h i bs) := by
  have hothers : (bs.map (rename ρ)).filter (fun b => b.handle ≠ ρ h) =
      (bs.filter fun b => b.handle ≠ h).map (rename ρ) := by
    rw [List.filter_map]
    congr 2
    funext b
    simp
  have hmoved : (bs.map (rename ρ)).filter (fun b => b.handle = ρ h) =
      (bs.filter fun b => b.handle = h).map (rename ρ) := by
    rw [List.filter_map]
    congr 2
    funext b
    simp
  rw [renameAll_eq, renameAll_eq, relocate, relocate]
  simp only [hothers, hmoved, List.map_append, List.map_take, List.map_drop]

end Injective

end Branch
end ScreenMarkup
