import Mathlib.Data.List.Perm.Basic
import ScreenMarkup.Proofs.Screen.Tree

/-!
# Parents and children

The handles above a handle and the branches below it tell the same tree: the
first handle above is the one whose branches hold it. So on a sound screen the
parent of a widget is the only one that lists it, and the way up ends at the
screen. The operations on the tree keep a screen sound whatever handles they get.
-/

set_option autoImplicit false

namespace ScreenMarkup

namespace Branch

variable {h k p : Handle} {b c : Branch} {bs : List Branch} {as : List Handle}

/-! ## The way up -/

mutual
theorem above?_eq_none (b : Branch) (hk : k ∉ b.handles) : above? k b = none := by
  obtain ⟨c, bs⟩ := b
  simp only [handles, List.mem_cons, not_or] at hk
  rw [above?, if_neg (Ne.symm hk.1), aboveAmong?_eq_none bs hk.2, Option.map_none]
theorem aboveAmong?_eq_none (bs : List Branch) (hk : k ∉ handlesAll bs) :
    aboveAmong? k bs = none := by
  match bs with
  | [] => rfl
  | b :: bs =>
    simp only [handlesAll, List.mem_append, not_or] at hk
    rw [aboveAmong?, above?_eq_none b hk.1, aboveAmong?_eq_none bs hk.2, Option.or_none]
end

mutual
theorem above?_isSome (b : Branch) (hk : k ∈ b.handles) : (above? k b).isSome = true := by
  obtain ⟨c, bs⟩ := b
  rw [above?]
  split
  · rfl
  · next hc =>
    rw [Option.isSome_map]
    exact aboveAmong?_isSome bs ((List.mem_cons.mp hk).resolve_left (Ne.symm hc))
theorem aboveAmong?_isSome (bs : List Branch) (hk : k ∈ handlesAll bs) :
    (aboveAmong? k bs).isSome = true := by
  match bs with
  | [] => simp [handlesAll] at hk
  | b :: bs =>
    rw [aboveAmong?, Option.isSome_or]
    rcases List.mem_append.mp hk with hk | hk
    · simp [above?_isSome b hk]
    · simp [aboveAmong?_isSome bs hk]
end

mutual
/-- From the root down to a handle is a part of the document order. -/
theorem above?_sublist (b : Branch) {as : List Handle} (ha : above? h b = some as) :
    (h :: as).reverse.Sublist b.handles := by
  obtain ⟨k, bs⟩ := b
  rw [above?] at ha
  split at ha
  · next hk =>
    cases ha
    rw [handles, hk]
    exact (List.nil_sublist _).cons_cons h
  · obtain ⟨as, hin, rfl⟩ := Option.map_eq_some_iff.mp ha
    rw [← List.cons_append, List.reverse_append, handles]
    exact (aboveAmong?_sublist bs hin).cons_cons k
theorem aboveAmong?_sublist (bs : List Branch) {as : List Handle}
    (ha : aboveAmong? h bs = some as) : (h :: as).reverse.Sublist (handlesAll bs) := by
  match bs with
  | [] => cases ha
  | b :: bs =>
    rw [aboveAmong?, Option.or_eq_some_iff] at ha
    rcases ha with ha | ⟨-, ha⟩
    · exact (above?_sublist b ha).trans (List.sublist_append_left _ _)
    · exact (aboveAmong?_sublist bs ha).trans (List.sublist_append_right _ _)
end

theorem mem_handlesAll_of_aboveAmong? (ha : aboveAmong? h bs = some as) : h ∈ handlesAll bs :=
  (aboveAmong?_sublist bs ha).subset (by simp)

/-- Nothing is above the root only. -/
theorem above?_eq_nil : above? h b = some [] ↔ h = b.handle := by
  obtain ⟨k, bs⟩ := b
  rw [above?]
  split
  · next hk => exact iff_of_true rfl hk.symm
  · next hk =>
    refine iff_of_false (fun ha => ?_) (Ne.symm hk)
    obtain ⟨as, -, hnil⟩ := Option.map_eq_some_iff.mp ha
    simp at hnil

/-- Nothing of a list is above the first handles of its branches. -/
theorem aboveAmong?_eq_nil (bs : List Branch) (hn : (handlesAll bs).Nodup) :
    aboveAmong? h bs = some [] ↔ h ∈ bs.map handle := by
  induction bs with
  | nil => simp [aboveAmong?]
  | cons b bs ih =>
    obtain ⟨-, hbs, hd⟩ := List.nodup_append.mp hn
    rw [aboveAmong?, Option.or_eq_some_iff, above?_eq_nil, ih hbs, List.map_cons, List.mem_cons]
    refine or_congr_right ⟨And.right, fun hin => ⟨above?_eq_none b fun hb => ?_, hin⟩⟩
    have hlater : h ∈ handlesAll bs := mem_handlesAll_of_aboveAmong? ((ih hbs).mpr hin)
    exact hd h hb h hlater rfl

/-! ## A step up and a step down -/

mutual
/-- The first handle above another one has it right below, and the rest is above that handle. -/
theorem above?_cons (b : Branch) (hn : b.handles.Nodup) {as : List Handle}
    (ha : above? h b = some (p :: as)) :
    above? p b = some as ∧ ∃ c, find? p b = some c ∧ h ∈ c.childHandles := by
  obtain ⟨k, bs⟩ := b
  obtain ⟨hk, hbs⟩ := List.nodup_cons.mp hn
  rw [above?] at ha
  split at ha
  · cases ha
  · obtain ⟨inner, hin, he⟩ := Option.map_eq_some_iff.mp ha
    cases inner with
    | nil =>
      obtain ⟨rfl, rfl⟩ : k = p ∧ [] = as := List.cons.inj he
      refine ⟨above?_eq_nil.mpr rfl, node k bs, by rw [find?, if_pos rfl], ?_⟩
      exact (aboveAmong?_eq_nil bs hbs).mp hin
    | cons q inner =>
      obtain ⟨hq, rfl⟩ : q = p ∧ inner ++ [k] = as := List.cons.inj he
      rw [hq] at hin
      obtain ⟨hp, c, hc, hmem⟩ := aboveAmong?_cons bs hbs hin
      have hkp : k ≠ p := fun he => hk (he ▸ mem_handlesAll_of_aboveAmong? hp)
      refine ⟨?_, c, by rw [find?, if_neg hkp, hc], hmem⟩
      rw [above?, if_neg hkp, hp, Option.map_some]
theorem aboveAmong?_cons (bs : List Branch) (hn : (handlesAll bs).Nodup) {as : List Handle}
    (ha : aboveAmong? h bs = some (p :: as)) :
    aboveAmong? p bs = some as ∧ ∃ c, findAmong? p bs = some c ∧ h ∈ c.childHandles := by
  match bs with
  | [] => cases ha
  | b :: bs =>
    obtain ⟨hb, hbs, hd⟩ := List.nodup_append.mp hn
    rw [aboveAmong?, Option.or_eq_some_iff] at ha
    rcases ha with ha | ⟨-, ha⟩
    · obtain ⟨hp, c, hc, hmem⟩ := above?_cons b hb ha
      exact ⟨by rw [aboveAmong?, hp, Option.some_or], c, by rw [findAmong?, hc, Option.some_or],
        hmem⟩
    · obtain ⟨hp, c, hc, hmem⟩ := aboveAmong?_cons bs hbs ha
      have hout : p ∉ b.handles := fun ho => hd p ho p (mem_handlesAll_of_aboveAmong? hp) rfl
      exact ⟨by rw [aboveAmong?, above?_eq_none b hout, Option.none_or, hp], c,
        by rw [findAmong?, find?_eq_none b hout, Option.none_or, hc], hmem⟩
end

theorem childHandles_sublist (b : Branch) : (b.handle :: b.childHandles).Sublist b.handles := by
  obtain ⟨k, bs⟩ := b
  refine List.Sublist.cons_cons k ?_
  show (bs.map handle).Sublist (handlesAll bs)
  induction bs with
  | nil => exact List.Sublist.refl _
  | cons b bs ih =>
    exact (List.singleton_sublist.mpr (handle_mem_handles b)).append ih

theorem mem_handles_of_childHandles (hc : h ∈ c.childHandles) : h ∈ c.handles :=
  c.childHandles_sublist.subset (List.mem_cons_of_mem _ hc)

mutual
/-- A handle right below another one has that one first above it. -/
theorem above?_of_child (b : Branch) (hn : b.handles.Nodup) {c : Branch}
    (hc : find? p b = some c) (hmem : h ∈ c.childHandles) :
    ∃ as, above? h b = some (p :: as) := by
  obtain ⟨k, bs⟩ := b
  obtain ⟨hk, hbs⟩ := List.nodup_cons.mp hn
  rw [find?] at hc
  split at hc
  · next hkp =>
    cases hc
    have hin : aboveAmong? h bs = some [] := (aboveAmong?_eq_nil bs hbs).mpr hmem
    have hkh : k ≠ h := fun he => hk (he ▸ mem_handlesAll_of_aboveAmong? hin)
    exact ⟨[], by rw [above?, if_neg hkh, hin, Option.map_some, hkp, List.nil_append]⟩
  · obtain ⟨as, hin⟩ := aboveAmong?_of_child bs hbs hc hmem
    have hkh : k ≠ h := fun he => hk (he ▸ mem_handlesAll_of_aboveAmong? hin)
    exact ⟨as ++ [k], by rw [above?, if_neg hkh, hin, Option.map_some, List.cons_append]⟩
theorem aboveAmong?_of_child (bs : List Branch) (hn : (handlesAll bs).Nodup) {c : Branch}
    (hc : findAmong? p bs = some c) (hmem : h ∈ c.childHandles) :
    ∃ as, aboveAmong? h bs = some (p :: as) := by
  match bs with
  | [] => cases hc
  | b :: bs =>
    obtain ⟨hb, hbs, hd⟩ := List.nodup_append.mp hn
    rw [findAmong?, Option.or_eq_some_iff] at hc
    rcases hc with hc | ⟨-, hc⟩
    · obtain ⟨as, ha⟩ := above?_of_child b hb hc hmem
      exact ⟨as, by rw [aboveAmong?, ha, Option.some_or]⟩
    · obtain ⟨as, ha⟩ := aboveAmong?_of_child bs hbs hc hmem
      have hout : h ∉ b.handles := fun ho => hd h ho h (mem_handlesAll_of_aboveAmong? ha) rfl
      exact ⟨as, by rw [aboveAmong?, above?_eq_none b hout, Option.none_or, ha]⟩
end

end Branch

namespace Screen

variable {s : Screen} {h p q : Handle}

/-! ## Parents on a sound screen -/

/-- The handle some steps up. -/
def climb (s : Screen) : Nat → Handle → Option Handle
  | 0, h => some h
  | n + 1, h => (s.parent? h).bind (s.climb n)

theorem parent?_eq_some : s.parent? h = some p ↔ ∃ as, s.shape.above? h = some (p :: as) := by
  rw [parent?, ancestors]
  cases s.shape.above? h with
  | none => simp
  | some as => cases as <;> simp

theorem mem_children : h ∈ s.children p ↔ ∃ c, s.branch? p = some c ∧ h ∈ c.childHandles := by
  rw [children_eq]
  cases s.branch? p <;> simp

/-- Parents and children agree. -/
theorem Sound.mem_children_iff (hs : s.Sound) : h ∈ s.children p ↔ s.parent? h = some p := by
  rw [mem_children, parent?_eq_some]
  constructor
  · rintro ⟨c, hc, hmem⟩
    exact Branch.above?_of_child s.shape hs.nodup hc hmem
  · rintro ⟨as, ha⟩
    exact (Branch.above?_cons s.shape hs.nodup ha).2

theorem Sound.screen_parent? (hs : s.Sound) : s.parent? Handle.screen = none := by
  rw [parent?, ancestors, Branch.above?_eq_nil.mpr hs.root.symm]
  rfl

theorem Sound.parent?_isSome (hs : s.Sound) (hl : s.isLive h = true)
    (hh : h ≠ Handle.screen) : ∃ p, s.parent? h = some p := by
  obtain ⟨as, ha⟩ :=
    Option.isSome_iff_exists.mp (Branch.above?_isSome s.shape (hs.mem_handles hl))
  cases as with
  | nil => exact absurd ((Branch.above?_eq_nil.mp ha).trans hs.root) hh
  | cons p as => exact ⟨p, parent?_eq_some.mpr ⟨as, ha⟩⟩

theorem Sound.parent?_live (hs : s.Sound) (hp : s.parent? h = some p) : s.isLive p = true := by
  obtain ⟨as, ha⟩ := parent?_eq_some.mp hp
  have hsub := Branch.above?_sublist s.shape ha
  exact (hs.live p).mp (hsub.subset (by simp))

theorem Sound.children_live (hs : s.Sound) (hc : h ∈ s.children p) : s.isLive h = true := by
  obtain ⟨c, hb, hmem⟩ := mem_children.mp hc
  have hsub := (Branch.find?_eq_some s.shape hb).2
  exact (hs.live h).mp (hsub.subset (Branch.mem_handles_of_childHandles hmem))

theorem Sound.children_nodup (hs : s.Sound) (p : Handle) : (s.children p).Nodup := by
  rw [children_eq]
  cases hb : s.branch? p with
  | none => exact List.nodup_nil
  | some c =>
    have hsub := (Branch.find?_eq_some s.shape hb).2
    have hn := c.childHandles_sublist.nodup (hsub.nodup hs.nodup)
    exact (List.nodup_cons.mp hn).2

/-- As many steps lead up to the screen as handles are above. -/
theorem Sound.climb_above (hs : s.Sound) {as : List Handle} (ha : s.shape.above? h = some as) :
    s.climb as.length h = some Handle.screen := by
  induction as generalizing h with
  | nil => rw [List.length_nil, climb, Branch.above?_eq_nil.mp ha, hs.root]
  | cons p as ih =>
    rw [List.length_cons, climb, parent?_eq_some.mpr ⟨as, ha⟩, Option.bind_some]
    exact ih (Branch.above?_cons s.shape hs.nodup ha).1

/-! ## Counting -/

/-- The handles that the occupied places give. -/
def occupants (s : Screen) : List Handle :=
  (s.slots.toList.zipIdx.filter fun e => e.1.widget.isSome).map fun e => ⟨e.2, e.1.generation⟩

theorem occupants_length (s : Screen) : s.occupants.length = s.size := by
  have hfst : s.slots.toList.zipIdx.map Prod.fst = s.slots.toList := List.zipIdx_map_fst 0 _
  rw [occupants, List.length_map, size]
  conv_rhs => rw [← hfst, List.filter_map, List.length_map]
  rfl

theorem mem_occupants : h ∈ s.occupants ↔ s.isLive h = true := by
  rw [occupants, List.mem_map, isLive_iff]
  constructor
  · rintro ⟨⟨slot, i⟩, he, rfl⟩
    rw [List.mem_filter, List.mk_mem_zipIdx_iff_getElem?, Array.getElem?_toList] at he
    obtain ⟨w, hw⟩ := Option.isSome_iff_exists.mp he.2
    exact ⟨w, by rw [widget?_eq he.1, if_pos rfl, hw]⟩
  · rintro ⟨w, hw⟩
    refine ⟨(⟨h.generation, some w⟩, h.slot), ?_, rfl⟩
    rw [List.mem_filter, List.mk_mem_zipIdx_iff_getElem?, Array.getElem?_toList]
    exact ⟨slot_of_widget? hw, rfl⟩

theorem occupants_nodup (s : Screen) : s.occupants.Nodup := by
  have hslots : (s.occupants.map Handle.slot).Sublist (List.range' 0 s.slots.toList.length) := by
    rw [occupants, List.map_map, ← List.zipIdx_map_snd 0 s.slots.toList]
    exact List.filter_sublist.map Prod.snd
  exact (hslots.nodup List.nodup_range').of_map Handle.slot

theorem Sound.size_eq_handles (hs : s.Sound) : s.size = s.shape.handles.length := by
  have hperm : s.occupants.Perm s.shape.handles :=
    (List.perm_ext_iff_of_nodup s.occupants_nodup hs.nodup).mpr fun h => by
      rw [mem_occupants, hs.live]
  rw [← occupants_length, hperm.length_eq]

/-- The screen is the only widget that is not below the screen. -/
theorem Sound.size_eq (hs : s.Sound) :
    s.size = (s.descendants Handle.screen).length + 1 := by
  have hroot := hs.root
  rw [hs.size_eq_handles, descendants, branch?]
  generalize s.shape = root at hroot
  obtain ⟨k, bs⟩ := root
  have hk : k = Handle.screen := hroot
  rw [Branch.find?, if_pos hk]
  rfl

/-- The way up is shorter than there are widgets. -/
theorem Sound.above_length (hs : s.Sound) {as : List Handle}
    (ha : s.shape.above? h = some as) : as.length < s.size := by
  have hle := (Branch.above?_sublist s.shape ha).length_le
  rwa [List.length_reverse, ← hs.size_eq_handles] at hle

end Screen

/-! ## Runs of operations on the tree -/

/-- What changes the widget tree. Every handle may be live, deleted or the screen. -/
inductive TreeOperation where
  | create (kind : WidgetKind) (parent : Handle)
  | delete (widget : Handle)
  | clean (widget : Handle)
  | moveTo (widget : Handle) (position : Nat)
  | raise (widget : Handle)
deriving DecidableEq, Inhabited

def TreeOperation.perform (o : TreeOperation) (s : Screen) : Screen :=
  match o with
  | create kind parent => (s.create kind parent).2
  | delete widget => s.delete widget
  | clean widget => s.clean widget
  | moveTo widget position => s.moveTo widget position
  | raise widget => s.raise widget

namespace Screen

variable {s : Screen}

/-- The screen after some operations on the tree, in order. -/
def arranged (s : Screen) (os : List TreeOperation) : Screen :=
  os.foldl (fun s o => o.perform s) s

theorem Sound.perform (hs : s.Sound) (o : TreeOperation) : (o.perform s).Sound := by
  cases o with
  | create kind parent => exact hs.create kind parent
  | delete widget => exact hs.delete widget
  | clean widget => exact hs.clean widget
  | moveTo widget position => exact hs.moveTo widget position
  | raise widget => exact hs.raise widget

theorem Sound.arranged (hs : s.Sound) (os : List TreeOperation) : (s.arranged os).Sound := by
  induction os generalizing s with
  | nil => exact hs
  | cons o os ih => exact ih (hs.perform o)

/-- Whatever is done to the tree of a new screen, with whatever handles, the live widgets form one
tree below the screen, and parents and lists of children tell the same tree. -/
theorem arranged_tree (size : Size) (os : List TreeOperation) :
    let s := (Screen.new size).arranged os
    (s.isLive Handle.screen = true ∧ s.parent? Handle.screen = none) ∧
    (∀ h, s.isLive h = true → h ≠ Handle.screen →
      ∃ p, s.parent? h = some p ∧ s.isLive p = true ∧ (s.children p).count h = 1 ∧
        ∀ q, h ∈ s.children q → q = p) ∧
    (∀ p, ∀ h ∈ s.children p, s.isLive h = true) ∧
    (∀ h, s.isLive h = true → ∃ n < s.size, s.climb n h = some Handle.screen) ∧
    s.size = (s.descendants Handle.screen).length + 1 := by
  intro s
  have hs : s.Sound := (sound_new size).arranged os
  refine ⟨⟨hs.screen_live, hs.screen_parent?⟩, ?parent, fun p h => hs.children_live, ?up,
    hs.size_eq⟩
  case parent =>
    intro h hl hh
    obtain ⟨p, hp⟩ := hs.parent?_isSome hl hh
    have hmem : h ∈ s.children p := hs.mem_children_iff.mpr hp
    refine ⟨p, hp, hs.parent?_live hp, List.count_eq_one_of_mem (hs.children_nodup p) hmem, ?_⟩
    intro q hq
    exact Option.some.inj ((hs.mem_children_iff.mp hq).symm.trans hp)
  case up =>
    intro h hl
    obtain ⟨as, ha⟩ :=
      Option.isSome_iff_exists.mp (Branch.above?_isSome s.shape (hs.mem_handles hl))
    exact ⟨as.length, hs.above_length ha, hs.climb_above ha⟩

end Screen
end ScreenMarkup
