import ScreenMarkup.Proofs.Screen.Clearing
import ScreenMarkup.Proofs.Screen.References

/-!
# Skipped handles

A widget that is made and deleted again leaves nothing on a screen, except that
the next widget in its place gets a later handle. So the screen is a copy of
what it was before, under a renaming that skips one handle of that place, and
whoever names only widgets that are there cannot tell.
-/

set_option autoImplicit false

namespace ScreenMarkup

/-! ## Renamings -/

namespace Handle

variable {h k : Handle}

/-- The next handle in one place, and the handle itself elsewhere. -/
def successor (i : Nat) (h : Handle) : Handle :=
  if h.slot = i ∧ h.generation ≠ 0 then h.next else h

theorem slot_successor (i : Nat) (h : Handle) : (h.successor i).slot = h.slot := by
  unfold successor
  split <;> rfl

theorem earlier_successor (i : Nat) (hs : h.slot = k.slot) :
    (h.successor i).generation < (k.successor i).generation ↔ h.generation < k.generation := by
  unfold successor
  split <;> split <;> simp only [next] <;> omega

theorem unnamed_successor (i : Nat) (h : Handle) :
    (h.successor i).generation = 0 ↔ h.generation = 0 := by
  unfold successor
  split
  · simp only [next]
    omega
  · rfl

theorem next_successor (i : Nat) (hh : h.generation ≠ 0) :
    h.next.successor i = (h.successor i).next := by
  have hn : h.next.generation ≠ 0 := Nat.succ_ne_zero _
  by_cases hs : h.slot = i
  · rw [successor, successor, if_pos ⟨hs, hn⟩, if_pos ⟨hs, hh⟩]
  · rw [successor, successor, if_neg fun hc => hs hc.1, if_neg fun hc => hs hc.1]

end Handle

namespace Renaming

/-- All handles stay. -/
def identity : Renaming where
  map := id
  slot _ _ := Iff.rfl
  earlier _ _ _ := Iff.rfl
  unnamed _ := Iff.rfl
  next _ _ := rfl
  screen := rfl

/-- First by `ρ` and then by `τ`. -/
def comp (ρ τ : Renaming) : Renaming where
  map := τ ∘ ρ
  slot h k := (τ.slot (ρ h) (ρ k)).trans (ρ.slot h k)
  earlier h k hs := (τ.earlier (ρ h) (ρ k) ((ρ.slot h k).mpr hs)).trans (ρ.earlier h k hs)
  unnamed h := (τ.unnamed (ρ h)).trans (ρ.unnamed h)
  next h hh := by
    rw [Function.comp_apply, Function.comp_apply, ρ.next h hh]
    exact τ.next (ρ h) fun he => hh ((ρ.unnamed h).mp he)
  screen := by rw [Function.comp_apply, ρ.screen, τ.screen]

/-- The widgets of one place go by the handles of their successors. -/
def skip (i : Nat) (hi : i ≠ 0) : Renaming where
  map := Handle.successor i
  slot h k := by rw [Handle.slot_successor, Handle.slot_successor]
  earlier h k hs := Handle.earlier_successor i hs
  unnamed h := Handle.unnamed_successor i h
  next h hh := Handle.next_successor i hh
  screen := if_neg fun hc => hi hc.1.symm

variable {i : Nat} {hi : i ≠ 0} {h : Handle}

theorem skip_of_ne (hs : h.slot ≠ i) : skip i hi h = h := if_neg fun hc => hs hc.1

theorem skip_eq_next (hs : h.slot = i) (hh : h.generation ≠ 0) : skip i hi h = h.next :=
  if_pos ⟨hs, hh⟩

end Renaming

/-! ## Branches -/

namespace Branch

variable {f : Handle → Handle} {h p : Handle}

mutual
theorem rename_of_fixed (b : Branch) (hf : ∀ k ∈ b.handles, f k = k) : b.rename f = b := by
  obtain ⟨c, bs⟩ := b
  rw [rename, hf c List.mem_cons_self,
    renameAll_of_fixed bs fun k hk => hf k (List.mem_cons_of_mem c hk)]
theorem renameAll_of_fixed (bs : List Branch) (hf : ∀ k ∈ handlesAll bs, f k = k) :
    renameAll f bs = bs := by
  match bs with
  | [] => rfl
  | b :: bs =>
    rw [renameAll, rename_of_fixed b fun k hk => hf k (List.mem_append_left _ hk),
      renameAll_of_fixed bs fun k hk => hf k (List.mem_append_right _ hk)]
end

theorem removeAll_concat_leaf (h : Handle) (bs : List Branch) :
    removeAll h (bs ++ [leaf h]) = removeAll h bs := by
  induction bs with
  | nil => exact if_pos rfl
  | cons b bs ih =>
    rw [List.cons_append, removeAll, removeAll, ih]

mutual
/-- A leaf that is added and removed again was never there. -/
theorem remove_modify_leaf (b : Branch) (hh : h ∉ b.handles) :
    remove h (modify p (· ++ [leaf h]) b) = b := by
  obtain ⟨c, bs⟩ := b
  have hbs : h ∉ handlesAll bs := fun hin => hh (List.mem_cons_of_mem c hin)
  rw [modify, remove]
  split
  · rw [removeAll_concat_leaf, removeAll_modifyAll_leaf bs hbs]
  · rw [removeAll_modifyAll_leaf bs hbs]
theorem removeAll_modifyAll_leaf (bs : List Branch) (hh : h ∉ handlesAll bs) :
    removeAll h (modifyAll p (· ++ [leaf h]) bs) = bs := by
  match bs with
  | [] => rfl
  | b :: bs =>
    rw [handlesAll, List.mem_append, not_or] at hh
    have hb : (modify p (· ++ [leaf h]) b).handle ≠ h := by
      obtain ⟨c, cs⟩ := b
      exact fun he => hh.1 (he ▸ handle_mem_handles (node c cs))
    rw [modifyAll, removeAll_cons_of_ne hb, remove_modify_leaf b hh.1,
      removeAll_modifyAll_leaf bs hh.2]
end

end Branch

/-! ## What a renaming leaves alone -/

theorem Handle.map_of_fixed {f : Handle → Handle} {o : Option Handle} (ho : ∀ k ∈ o, f k = k) :
    o.map f = o := by
  cases o with
  | none => rfl
  | some k => exact congrArg some (ho k rfl)

theorem Widget.rename_of_fixed {f : Handle → Handle} {w : Widget} (hf : ∀ k ∈ w.named, f k = k) :
    w.rename f = w := by
  have hkeyboard : w.keyboardTarget.map f = w.keyboardTarget :=
    Handle.map_of_fixed fun k hk => hf k (List.mem_append_left _ (Option.mem_toList.mpr hk))
  have htile : w.activeTile.map f = w.activeTile :=
    Handle.map_of_fixed fun k hk => hf k (List.mem_append_right _ (Option.mem_toList.mpr hk))
  rw [rename, hkeyboard, htile]

/-! ## Screens -/

namespace Screen

variable {ρ τ : Renaming} {s t u v : Screen} {h p : Handle} {kind : WidgetKind}

theorem Linked.copies_self (hs : s.Linked) : Copies .identity s s where
  widget h := by
    rw [show Renaming.identity h = h from rfl]
    cases hw : s.widget? h with
    | none => rfl
    | some w => exact congrArg some (Widget.rename_of_fixed fun _ _ => rfl).symm
  upcoming _ := rfl
  named := hs.counted
  dead := hs.sound.freeDead
  dead' := hs.sound.freeDead
  sound := hs.sound
  sound' := hs.sound
  shape := (Branch.rename_of_fixed s.shape fun _ _ => rfl).symm

theorem Copies.trans (h₁ : Copies ρ s t) (h₂ : Copies τ t u) : Copies (ρ.comp τ) s u where
  widget h := by
    show u.widget? (τ (ρ h)) = _
    rw [h₂.widget, h₁.widget, Option.map_map]
    congr 1
    exact funext (Widget.rename_rename ρ τ)
  upcoming i := by
    rw [h₂.upcoming, h₁.upcoming]
    rfl
  named := h₁.named
  dead := h₁.dead
  dead' := h₂.dead'
  sound := h₁.sound
  sound' := h₂.sound'
  shape := by
    rw [h₂.shape, h₁.shape]
    exact Branch.rename_rename τ s.shape

/-- The renaming after a widget is made and deleted. -/
def Sound.skipping (hs : s.Sound) : Renaming := .skip (s.upcoming 0).slot (hs.upcoming_ne_top 0)

/-- It is nothing to the widgets that are there. -/
theorem Sound.skipping_live (hs : s.Sound) (hl : s.isLive h = true) : hs.skipping h = h := by
  refine Renaming.skip_of_ne fun he => ?_
  rcases upcoming_slot s 0 with hfree | ⟨-, hslot⟩
  · exact not_mem_free hs.freeDead hl (he ▸ List.mem_of_getElem? hfree)
  · have hlt := slot_lt_of_isLive hl
    omega

theorem Sound.skipping_zero (hs : s.Sound) : hs.skipping (s.upcoming 0) = (s.upcoming 0).next :=
  Renaming.skip_eq_next rfl (upcoming_named s 0)

theorem Sound.skipping_succ (hs : s.Sound) (i : Nat) :
    hs.skipping (s.upcoming (i + 1)) = s.upcoming (i + 1) :=
  Renaming.skip_of_ne fun he => Nat.succ_ne_zero i (hs.upcoming_injective he)

/-- A handle that names no widget names none under the renaming either. -/
theorem Sound.widget?_skipping_dead (hs : s.Sound) (hw : s.widget? h = none) :
    s.widget? (hs.skipping h) = none := by
  by_contra hsome
  have hfixed := hs.skipping_live (Option.isSome_iff_ne_none.mpr hsome)
  rw [hs.skipping.injective hfixed] at hsome
  exact hsome hw

/-- Places are given back in the order in which new widgets take them. -/
theorem Sound.upcoming_delete_new (hs : s.Sound) {P : Widget → Widget → Prop}
    (hv : Touches (· = (s.create kind p).1) P (s.create kind p).2 v)
    (hu : ∀ i, v.upcoming i = (s.create kind p).2.upcoming i) (i : Nat) :
    (v.delete (s.create kind p).1).upcoming i = hs.skipping (s.upcoming i) := by
  have hne : (s.create kind p).1 ≠ Handle.screen := (hs.create_ne kind p hs.screen_live).symm
  have hlive : v.isLive (s.create kind p).1 = true := (hv.isLive _).trans (hs.live_create kind p)
  have hbranch : v.branch? (s.create kind p).1 = some (Branch.leaf (s.create kind p).1) := by
    rw [branch?, hv.shape]
    exact hs.branch?_create kind p
  have hlevels : (Branch.leaf (s.create kind p).1).levels = [(s.create kind p).1] :=
    List.perm_singleton.mp (Branch.leaf (s.create kind p).1).levels_perm
  have hfree := not_mem_free ((hs.create kind p).touch hv).freeDead hlive
  rw [delete_eq hne hbranch, hlevels]
  refine (upcoming_release hlive hfree i).trans ?_
  cases i with
  | zero => rw [if_pos rfl, create_fst, hs.skipping_zero]
  | succ i =>
    rw [if_neg (Nat.succ_ne_zero i), Nat.add_one_sub_one, hu, hs.skipping_succ]
    exact hs.upcoming_allocate (Widget.new kind) i

/-- The tree is as it was before. -/
theorem Sound.shape_delete_new (hs : s.Sound) (hv : v.shape = (s.create kind p).2.shape) :
    (v.delete (s.create kind p).1).shape = s.shape := by
  have hne : (s.create kind p).1 ≠ Handle.screen := (hs.create_ne kind p hs.screen_live).symm
  have hout : (s.create kind p).1 ∉ s.shape.handles := fun hin => by
    have hlive := (hs.live _).mp hin
    rw [isLive, hs.create_fresh] at hlive
    cases hlive
  rw [shape_delete hne, hv, create_shape, Branch.remove_modify_leaf s.shape hout]

/-- A widget may be made, changed and deleted again: apart from its handle, which is used up, the
screen is the one before. -/
theorem Linked.copies_delete_new (hs : s.Linked) {P : Widget → Widget → Prop}
    (hv : Touches (· = (s.create kind p).1) P (s.create kind p).2 v)
    (hu : ∀ i, v.upcoming i = (s.create kind p).2.upcoming i) :
    Copies hs.sound.skipping s (v.delete (s.create kind p).1) := by
  have hdeleted := ((hs.sound.create kind p).touch hv).delete (s.create kind p).1
  refine ⟨⟨fun k => ?_, hs.sound.upcoming_delete_new hv hu, hs.counted, hs.sound.freeDead,
    hdeleted.freeDead⟩, hs.sound, hdeleted, ?_⟩
  · rw [hs.sound.widget?_delete_new hv]
    cases hk : s.widget? k with
    | none => exact hs.sound.widget?_skipping_dead hk
    | some w =>
      rw [hs.sound.skipping_live (isLive_iff.mpr ⟨w, hk⟩), hk]
      exact congrArg some
        (Widget.rename_of_fixed fun n hn => hs.sound.skipping_live (hs.named k w hk n hn)).symm
  · rw [hs.sound.shape_delete_new hv.shape]
    exact (Branch.rename_of_fixed s.shape fun k hk =>
      hs.sound.skipping_live ((hs.sound.live k).mp hk)).symm

end Screen
end ScreenMarkup
