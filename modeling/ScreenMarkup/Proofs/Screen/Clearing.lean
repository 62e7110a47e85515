import ScreenMarkup.Proofs.Navigation.Top
import ScreenMarkup.Proofs.Screen.Copy

/-!
# Clean screens

A clean screen has nothing on it, but it remembers which places were used, and
so its new widgets do not get the handles that they get on a new screen. Apart
from these handles the two cannot be told apart: a clean screen is a copy of a
new one.
-/

set_option autoImplicit false

namespace ScreenMarkup.Screen

variable {s t : Screen} {h k : Handle}

/-! ## Cleaning -/

theorem shape_delete (hh : h ≠ Handle.screen) : (s.delete h).shape = s.shape.remove h := by
  cases hb : s.branch? h with
  | some b => exact delete_shape hh hb
  | none =>
    have hout : h ∉ s.shape.handles := fun hin => by
      rw [branch?] at hb
      exact absurd (Branch.find?_isSome s.shape hin) (by rw [hb]; exact Bool.false_ne_true)
    rw [Branch.remove_of_not_mem s.shape hout, Screen.delete, if_neg hh, hb]

theorem Sound.children_top (hs : s.Sound) : s.children Handle.screen = s.shape.childHandles := by
  have hb : s.branch? Handle.screen = some s.shape := by
    have hroot := hs.root
    rw [branch?]
    generalize s.shape = root at hroot ⊢
    obtain ⟨k, bs⟩ := root
    exact if_pos hroot
  rw [children_eq, hb]
  rfl

theorem Sound.childHandles_deleteAll (hs : s.Sound) {ks : List Handle}
    (hk : s.shape.childHandles = ks) : (ks.foldl Screen.delete s).shape.childHandles = [] := by
  induction ks generalizing s with
  | nil => exact hk
  | cons k ks ih =>
    have hchildren : s.children Handle.screen = k :: ks := hs.children_top.trans hk
    have hne : k ≠ Handle.screen :=
      hs.child_ne_top (p := Handle.screen) (hchildren ▸ List.mem_cons_self)
    have hnodup := hs.children_nodup Handle.screen
    rw [hchildren] at hnodup
    apply ih (hs.delete k)
    rw [shape_delete hne, Branch.childHandles_remove, hk, List.filter_cons_of_neg (by simp),
      List.filter_eq_self]
    intro c hc
    have hck : c ≠ k := fun he => (List.nodup_cons.mp hnodup).1 (he ▸ hc)
    simp [hck]

/-- Cleaning the screen leaves nothing but the screen. -/
theorem Sound.clean_shape (hs : s.Sound) :
    (s.clean Handle.screen).shape = Branch.leaf Handle.screen := by
  have hroot := (hs.clean Handle.screen).root
  have hbare : (s.clean Handle.screen).shape.childHandles = [] := by
    unfold Screen.clean
    rw [hs.children_top]
    exact hs.childHandles_deleteAll rfl
  generalize (s.clean Handle.screen).shape = root at hroot hbare
  obtain ⟨k, bs⟩ := root
  have hk : k = Handle.screen := hroot
  have hbs : bs = [] := List.map_eq_nil_iff.mp hbare
  rw [hk, hbs, Branch.leaf]

/-! ## Where new widgets go -/

theorem upcoming_slot (s : Screen) (i : Nat) :
    s.free[i]? = some (s.upcoming i).slot ∨
      s.free.length ≤ i ∧ (s.upcoming i).slot = s.slots.size + (i - s.free.length) := by
  unfold upcoming
  split
  · next slot hslot => exact .inl hslot
  · next hnone => exact .inr ⟨List.getElem?_eq_none_iff.mp hnone, rfl⟩

/-- No two new widgets get the same place. -/
theorem Sound.upcoming_injective (hs : s.Sound) {i j : Nat}
    (he : (s.upcoming i).slot = (s.upcoming j).slot) : i = j := by
  have hlt {i : Nat} (hi : s.free[i]? = some (s.upcoming i).slot) :
      (s.upcoming i).slot < s.slots.size :=
    hs.freeLt _ (List.mem_of_getElem? hi)
  rcases upcoming_slot s i with hi | ⟨hi, hslot⟩ <;>
    rcases upcoming_slot s j with hj | ⟨hj, hslot'⟩
  · have hbound := (List.getElem?_eq_some_iff.mp hi).1
    exact (List.getElem?_inj hbound hs.freeNodup).mp (by rw [hi, hj, he])
  · have := hlt hi
    omega
  · have := hlt hj
    omega
  · omega

/-- The screen keeps its place. -/
theorem Sound.upcoming_ne_top (hs : s.Sound) (i : Nat) : (s.upcoming i).slot ≠ 0 := by
  intro he
  rcases upcoming_slot s i with hi | ⟨-, hslot⟩
  · have hdead := hs.freeDead _ (List.mem_of_getElem? hi) Handle.screen.generation
    rw [he] at hdead
    have hlive : (s.widget? Handle.screen).isSome = true := hs.screen_live
    rw [show Handle.screen = ⟨0, Handle.screen.generation⟩ from rfl, hdead] at hlive
    cases hlive
  · have hlt : Handle.screen.slot < s.slots.size := slot_lt_of_isLive hs.screen_live
    omega

/-- The handle on `s` of a widget of a new screen, made after equally many others. -/
def landing (s : Screen) (h : Handle) : Handle :=
  match h.slot with
  | 0 => h
  | i + 1 =>
    ⟨(s.upcoming i).slot,
      if h.generation = 0 then 0 else (s.upcoming i).generation + (h.generation - 1)⟩

theorem Sound.landing_slot (hs : s.Sound) (h k : Handle) :
    (s.landing h).slot = (s.landing k).slot ↔ h.slot = k.slot := by
  obtain ⟨i, g⟩ := h
  obtain ⟨j, g'⟩ := k
  cases i with
  | zero =>
    cases j with
    | zero => simp [landing]
    | succ j => simpa [landing] using (hs.upcoming_ne_top j).symm
  | succ i =>
    cases j with
    | zero => simpa [landing] using hs.upcoming_ne_top i
    | succ j =>
      simp only [landing, Nat.add_right_cancel_iff]
      exact ⟨hs.upcoming_injective, fun he => by rw [he]⟩

theorem landing_earlier (s : Screen) (h k : Handle) (he : h.slot = k.slot) :
    (s.landing h).generation < (s.landing k).generation ↔ h.generation < k.generation := by
  obtain ⟨i, g⟩ := h
  obtain ⟨j, g'⟩ := k
  have hij : i = j := he
  subst hij
  cases i with
  | zero => rfl
  | succ i =>
    have := upcoming_named s i
    simp only [landing]
    split <;> split <;> omega

theorem landing_unnamed (s : Screen) (h : Handle) :
    (s.landing h).generation = 0 ↔ h.generation = 0 := by
  obtain ⟨i, g⟩ := h
  cases i with
  | zero => rfl
  | succ i =>
    have := upcoming_named s i
    simp only [landing]
    split <;> omega

theorem landing_next (s : Screen) (h : Handle) (hh : h.generation ≠ 0) :
    s.landing h.next = (s.landing h).next := by
  obtain ⟨i, g⟩ := h
  cases i with
  | zero => rfl
  | succ i =>
    have hg : g ≠ 0 := hh
    have hgeneration (g : Nat) (hg : g ≠ 0) : s.landing ⟨i + 1, g⟩ =
        ⟨(s.upcoming i).slot, (s.upcoming i).generation + (g - 1)⟩ :=
      congrArg (Handle.mk _) (if_neg hg)
    have hsucc : g + 1 - 1 = g - 1 + 1 := by omega
    rw [Handle.next, Handle.next, hgeneration g hg, hgeneration (g + 1) (Nat.succ_ne_zero g), hsucc]
    rfl

def Sound.landed (hs : s.Sound) : Renaming where
  map := s.landing
  slot := hs.landing_slot
  earlier := landing_earlier s
  unnamed := landing_unnamed s
  next := landing_next s
  screen := rfl

/-- A screen with nothing on it is a copy of a new one. -/
theorem Sound.copies_new (hs : s.Sound) (hshape : s.shape = Branch.leaf Handle.screen) {size : Size}
    (htop : s.widget? Handle.screen = (Screen.new size).widget? Handle.screen) :
    Copies hs.landed (Screen.new size) s := by
  have hnew := (wellFormed_new size).toSound
  have hdead {k : Handle} (hk : k ≠ Handle.screen) : s.widget? k = none := by
    by_contra hw
    have hin := (hs.live k).mpr (Option.isSome_iff_ne_none.mpr hw)
    rw [hshape] at hin
    exact hk (List.mem_singleton.mp hin)
  have hdead' {k : Handle} (hk : k ≠ Handle.screen) : (Screen.new size).widget? k = none := by
    by_contra hw
    exact hk ((isLive_new size k).mp (Option.isSome_iff_ne_none.mpr hw))
  refine ⟨⟨fun k => ?_, fun i => ?_, fun k hk => ?_, hnew.freeDead, hs.freeDead⟩, hnew, hs, ?_⟩
  · by_cases hk : k = Handle.screen
    · rw [hk, hs.landed.screen, htop]
      rfl
    · rw [hdead fun he => hk (hs.landed.eq_screen_iff.mp he), hdead' hk]
      rfl
  · show s.upcoming i = s.landing ⟨1 + i, 1⟩
    rw [Nat.add_comm]
    rfl
  · rw [(isLive_new size k).mp hk]
    exact Nat.one_ne_zero
  · rw [hshape]
    rfl

end ScreenMarkup.Screen
