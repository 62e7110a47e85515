import ScreenMarkup.Proofs.Screen.Clearing
import ScreenMarkup.Session.Attribute

/-!
# Later screens

As long as nothing is deleted that stood there before, every widget of a
screen stays where it stands, and a new one takes a place with a number that
no widget of this place has had. So a handle that has lost its widget never
names one again.
-/

set_option autoImplicit false

namespace ScreenMarkup.Screen

variable {s t u : Screen} {h k p : Handle}

/-- The widgets of `s` stand on `t` below the same parents, and others on `t` are new. -/
structure Stands (s t : Screen) : Prop where
  sound : t.Sound
  live : ∀ h, s.isLive h = true → t.isLive h = true
  parent : ∀ h, s.isLive h = true → t.parent? h = s.parent? h
  generation : ∀ i, s.generationAt i ≤ t.generationAt i
  fresh : ∀ h, t.isLive h = true → s.isLive h = true ∨ s.generationAt h.slot < h.generation

/-- What was done to `s` to get `t` deleted nothing, if `s` was sound. -/
def Later (s t : Screen) : Prop := s.Sound → Stands s t

/-- The handle has lost its widget. -/
def Spent (s : Screen) (h : Handle) : Prop :=
  s.isLive h = false ∧ h.generation ≤ s.generationAt h.slot

theorem Spent.stands (hh : s.Spent h) (ht : Stands s t) : t.Spent h := by
  refine ⟨Bool.eq_false_iff.mpr fun hl => ?_, Nat.le_trans hh.2 (ht.generation h.slot)⟩
  rcases ht.fresh h hl with hold | hnew
  · rw [hh.1] at hold
    cases hold
  · exact Nat.lt_irrefl _ (Nat.lt_of_lt_of_le hnew hh.2)

theorem Later.refl (s : Screen) : Later s s :=
  fun hs => ⟨hs, fun _ hl => hl, fun _ _ => rfl, fun _ => Nat.le_refl _, fun _ hl => .inl hl⟩

theorem Later.trans (h₁ : Later s t) (h₂ : Later t u) : Later s u := by
  intro hs
  have st := h₁ hs
  have tu := h₂ st.sound
  refine ⟨tu.sound, fun h hl => tu.live h (st.live h hl),
    fun h hl => (tu.parent h (st.live h hl)).trans (st.parent h hl),
    fun i => Nat.le_trans (st.generation i) (tu.generation i), fun h hl => ?_⟩
  rcases tu.fresh h hl with hold | hnew
  · exact st.fresh h hold
  · exact .inr (Nat.lt_of_le_of_lt (st.generation h.slot) hnew)

theorem Later.foldl {α : Type} {f : Screen → α → Screen} (hf : ∀ s a, Later s (f s a))
    (as : List α) (s : Screen) : Later s (as.foldl f s) := by
  induction as generalizing s with
  | nil => exact Later.refl s
  | cons a as ih => exact (hf s a).trans (ih (f s a))

theorem Later.ite {c : Prop} [Decidable c] (ht : Later s t) : Later s (if c then t else s) := by
  split
  · exact ht
  · exact Later.refl s

theorem parent?_congr (hshape : t.shape = s.shape) (h : Handle) : t.parent? h = s.parent? h := by
  rw [parent?, parent?, ancestors, ancestors, hshape]

/-! ## Changes of widgets -/

theorem later_modify (s : Screen) (h : Handle) (f : Widget → Widget) : Later s (s.modify h f) := by
  intro hs
  have ht : Touches (· = h) (fun _ _ => True) s (s.modify h f) :=
    touches_modify (fun _ => trivial) fun _ => trivial
  exact ⟨hs.touch ht, fun k hl => (ht.isLive k).trans hl, fun k _ => parent?_congr ht.shape k,
    fun i => Nat.le_of_eq (generationAt_modify s h f i).symm, fun k hl => .inl ((ht.isLive k).symm.trans hl)⟩

theorem later_styling (h : Handle) : Styling h Later where
  refl := Later.refl
  trans := Later.trans
  setPos s _ _ := later_modify s h _
  setSize s _ _ := later_modify s h _
  applyStyle s _ := later_modify s h _

theorem later_applyStyles (s : Screen) (h : Handle) (ps : List StyleChange) :
    Later s (s.applyStyles h ps) :=
  (later_styling h).applyStyles s ps

theorem later_resize (s : Screen) (h : Handle) (x y : Int) : Later s (s.resize h x y) :=
  later_modify s h _

theorem later_applyInline (s : Screen) (h text : Handle) (i : Inline) :
    Later s (s.applyInline h text i) :=
  (later_styling h).applyInline (later_styling text) s i

theorem later_pointer (s : Screen) (p : Offset) : Later s (s.setPointer p) :=
  fun hs => ⟨⟨hs.root, hs.nodup, hs.live, hs.freeLt, hs.freeDead, hs.freeNodup⟩, fun _ hl => hl,
    fun _ _ => rfl, fun _ => Nat.le_refl _, fun _ hl => .inl hl⟩

theorem later_advance (s : Screen) (ms : Nat) : Later s (s.advance ms) :=
  fun hs => ⟨⟨hs.root, hs.nodup, hs.live, hs.freeLt, hs.freeDead, hs.freeNodup⟩, fun _ hl => hl,
    fun _ _ => rfl, fun _ => Nat.le_refl _, fun _ hl => .inl hl⟩

/-! ## Moves -/

/-- Parents are told by the children. -/
theorem Sound.parent?_eq (hs : s.Sound) (ht : t.Sound)
    (hc : ∀ p, k ∈ t.children p ↔ k ∈ s.children p) : t.parent? k = s.parent? k := by
  apply Option.ext
  intro p
  rw [← ht.mem_children_iff, ← hs.mem_children_iff, hc]

theorem Sound.mem_children_reorder (hs : s.Sound) (hr : Reorders s t) (p : Handle) :
    k ∈ t.children p ↔ k ∈ s.children p := by
  obtain ⟨q, f, ht, hf⟩ := hr.shape
  have hsearch (k : Handle) (bs : List Branch) (hn : (Branch.handlesAll bs).Nodup) :
      Branch.findAmong? k (f bs) = Branch.findAmong? k bs :=
    Branch.findAmong?_perm (hf bs).symm hn
  by_cases hp : p = q
  · subst hp
    rw [hs.children_modify_self ht (hsearch p), children_eq]
    cases s.branch? p with
    | none => rfl
    | some b => exact ((hf b.children).map Branch.handle).mem_iff
  · rw [hs.children_modify ht hp fun bs hn => hsearch p bs hn]

theorem later_reorder (hr : Reorders s t) : Later s t := by
  intro hs
  have ht := hs.reorder hr
  have hlive (k : Handle) : t.isLive k = s.isLive k := isLive_congr (hr.widget? k)
  have hgeneration (i : Nat) : t.generationAt i = s.generationAt i := by
    rw [generationAt, generationAt, hr.slots]
  exact ⟨ht, fun k hl => (hlive k).trans hl,
    fun k _ => hs.parent?_eq ht fun p => hs.mem_children_reorder hr p,
    fun i => Nat.le_of_eq (hgeneration i).symm, fun k hl => .inl ((hlive k).symm.trans hl)⟩

theorem later_moveTo (s : Screen) (h : Handle) (i : Nat) : Later s (s.moveTo h i) := by
  rcases moveTo_eq_or s h i with he | hr
  · rw [he]
    exact Later.refl s
  · exact later_reorder hr

theorem later_raise (s : Screen) (h : Handle) : Later s (s.raise h) := by
  rcases raise_eq_or s h with he | hr
  · rw [he]
    exact Later.refl s
  · exact later_reorder hr

theorem later_stack (s : Screen) (controls : Controls) : Later s (s.stack controls) := by
  unfold stack
  extract_lets sunk
  exact (Later.foldl (fun s (e : Int × Handle) => later_moveTo s e.2 0) _ s).trans
    (Later.foldl (fun s (e : Int × Handle) => later_raise s e.2) _ sunk)

/-! ## New widgets -/

theorem generationAt_upcoming (s : Screen) :
    s.generationAt (s.upcoming 0).slot < (s.upcoming 0).generation := by
  unfold upcoming
  split
  · exact Nat.lt_succ_self _
  · next hnone =>
    have hlength : s.free.length = 0 := Nat.eq_zero_of_le_zero (List.getElem?_eq_none_iff.mp hnone)
    have hnew : s.slots[s.slots.size + (0 - s.free.length)]? = none :=
      Array.getElem?_eq_none (Nat.le_add_right _ _)
    rw [generationAt, hnew]
    exact Nat.one_pos

theorem generationAt_allocate (s : Screen) (w : Widget) (i : Nat) :
    s.generationAt i ≤ (s.allocate w).2.generationAt i := by
  unfold allocate
  split
  · by_cases hi : i < s.slots.size
    · simp [generationAt, Array.getElem?_push_lt hi, Array.getElem?_eq_getElem hi]
    · simp [generationAt, Array.getElem?_eq_none (Nat.le_of_not_lt hi)]
  · next j free hf =>
    by_cases hi : j = i
    · subst hi
      by_cases hj : j < s.slots.size
      · simp [generationAt, Array.getElem?_setIfInBounds_self_of_lt hj]
      · simp [generationAt, Array.getElem?_eq_none (Nat.le_of_not_lt hj)]
    · simp [generationAt, Array.getElem?_setIfInBounds_ne hi]

theorem Sound.children_create_self (hs : s.Sound) (kind : WidgetKind) (parent : Handle) :
    (s.create kind parent).2.children (s.holder parent) =
      s.children (s.holder parent) ++ [(s.create kind parent).1] := by
  have hne := hs.create_ne kind parent (hs.holder_live parent)
  rw [hs.children_modify_self (create_shape s kind parent) fun bs _ =>
    Branch.findAmong?_append_leaf bs hne, children_eq]
  have hsome := Branch.find?_isSome s.shape (hs.mem_handles (hs.holder_live parent))
  cases hb : s.branch? (s.holder parent) with
  | none =>
    rw [branch?] at hb
    rw [hb] at hsome
    cases hsome
  | some b => exact List.map_append

theorem Sound.mem_children_create (hs : s.Sound) (kind : WidgetKind) (parent p : Handle) :
    k ∈ (s.create kind parent).2.children p ↔
      k ∈ s.children p ∨ (k = (s.create kind parent).1 ∧ p = s.holder parent) := by
  by_cases hp : p = s.holder parent
  · rw [hp, hs.children_create_self, List.mem_append, List.mem_singleton, and_iff_left rfl]
  · rw [hs.children_create kind parent hp, or_iff_left fun h => hp h.2]

theorem later_create (s : Screen) (kind : WidgetKind) (parent : Handle) :
    Later s (s.create kind parent).2 := by
  intro hs
  have ht := hs.create kind parent
  refine ⟨ht, fun k hl => ?_, fun k hl => ?_, fun i => generationAt_allocate s _ i, fun k hl => ?_⟩
  · rw [isLive, hs.widget?_create, if_neg (hs.create_ne kind parent hl)]
    exact hl
  · refine hs.parent?_eq ht fun p => ?_
    rw [hs.mem_children_create, or_iff_left fun h => hs.create_ne kind parent hl h.1]
  · by_cases hk : k = (s.create kind parent).1
    · rw [hk, create_fst]
      exact .inr s.generationAt_upcoming
    · rw [isLive, hs.widget?_create, if_neg hk] at hl
      exact .inl hl

/-- A new widget stands below its parent, if there is one. -/
theorem Sound.parent?_create (hs : s.Sound) (kind : WidgetKind) {parent : Handle}
    (hl : s.isLive parent = true) :
    (s.create kind parent).2.parent? (s.create kind parent).1 = some parent := by
  have hholder : s.holder parent = parent := if_pos hl
  rw [← (hs.create kind parent).mem_children_iff, hs.mem_children_create, hholder]
  exact .inr ⟨rfl, rfl⟩

theorem Sound.live_create (hs : s.Sound) (kind : WidgetKind) (parent : Handle) :
    (s.create kind parent).2.isLive (s.create kind parent).1 = true := by
  rw [isLive, hs.widget?_create, if_pos rfl]
  rfl

/-- A new widget below `parent`, and then whatever it needs. -/
structure Makes (s : Screen) (kind : WidgetKind) (parent h : Handle) (t : Screen) : Prop where
  handle : (s.create kind parent).1 = h
  rest : Later (s.create kind parent).2 t

theorem makes {kind : WidgetKind} (hc : s.create kind p = (h, t)) (hu : Later t u) :
    s.Makes kind p h u :=
  ⟨congrArg Prod.fst hc, hc ▸ hu⟩

theorem Makes.later {kind : WidgetKind} (hm : s.Makes kind p h t) : Later s t :=
  (later_create s kind p).trans hm.rest

theorem Makes.live {kind : WidgetKind} (hm : s.Makes kind p h t) (hs : s.Sound) :
    t.isLive h = true := by
  rw [← hm.handle]
  exact (hm.rest (hs.create kind p)).live _ (hs.live_create kind p)

theorem Makes.parent? {kind : WidgetKind} (hm : s.Makes kind p h t) (hs : s.Sound)
    (hp : s.isLive p = true) : t.parent? h = some p := by
  rw [← hm.handle, (hm.rest (hs.create kind p)).parent _ (hs.live_create kind p)]
  exact hs.parent?_create kind hp

theorem Sound.live_of_parent? (hs : s.Sound) (hp : s.parent? h = some p) : s.isLive h = true :=
  hs.children_live (hs.mem_children_iff.mpr hp)

/-! ## Deleted widgets -/

theorem generationAt_release (hl : s.isLive h = true) (i : Nat) :
    (s.release h).generationAt i = s.generationAt i := by
  obtain ⟨w, hw⟩ := isLive_iff.mp hl
  by_cases hi : h.slot = i
  · subst hi
    rw [generationAt_of_widget? hw, generationAt, release,
      Array.getElem?_setIfInBounds_self_of_lt (slot_lt_of_isLive hl)]
    rfl
  · simp only [generationAt, release, Array.getElem?_setIfInBounds_ne hi]

theorem generationAt_releaseAll {hs : List Handle} (hn : hs.Nodup)
    (hl : ∀ h ∈ hs, s.isLive h = true) (i : Nat) :
    (hs.foldl release s).generationAt i = s.generationAt i := by
  induction hs generalizing s with
  | nil => rfl
  | cons h hs ih =>
    obtain ⟨hh, hn⟩ := List.nodup_cons.mp hn
    have hlh : s.isLive h = true := hl h List.mem_cons_self
    refine (ih hn fun k hk => ?_).trans (generationAt_release hlh i)
    rw [isLive, widget?_release hlh, if_neg (ne_of_mem_of_not_mem hk hh)]
    exact hl k (List.mem_cons_of_mem h hk)

theorem Sound.generationAt_delete (hs : s.Sound) (h : Handle) (i : Nat) :
    (s.delete h).generationAt i = s.generationAt i := by
  rcases delete_eq_or s h with he | ⟨hh, b, hb⟩
  · rw [he]
  · obtain ⟨hn, hl⟩ := hs.levels_live hb
    rw [delete_eq hh hb]
    exact generationAt_releaseAll hn hl i

theorem Sound.generationAt_clean (hs : s.Sound) (h : Handle) (i : Nat) :
    (s.clean h).generationAt i = s.generationAt i :=
  (clean_keeps (P := fun t => t.Sound ∧ t.generationAt i = s.generationAt i)
    (fun _ k ht => ⟨ht.1.delete k, (ht.1.generationAt_delete k i).trans ht.2⟩) ⟨hs, rfl⟩ h).2

/-- On a clean screen all handles but that of the screen have lost their widgets. -/
theorem Sound.spent_clean (hs : s.Sound) (hh : h ≠ Handle.screen)
    (hl : s.isLive h = true ∨ s.Spent h) : (s.clean Handle.screen).Spent h := by
  have hdead : (s.clean Handle.screen).isLive h = false := by
    rw [Bool.eq_false_iff, ne_eq, ← (hs.clean Handle.screen).live, hs.clean_shape]
    exact fun hin => hh (List.mem_singleton.mp hin)
  refine ⟨hdead, ?_⟩
  rw [hs.generationAt_clean]
  rcases hl with hl | hspent
  · obtain ⟨w, hw⟩ := isLive_iff.mp hl
    exact Nat.le_of_eq (generationAt_of_widget? hw).symm
  · exact hspent.2

theorem Sound.children_delete_leaf (hs : s.Sound) (hh : h ≠ Handle.screen)
    (hb : s.branch? h = some (Branch.leaf h)) (hp : p ≠ h) :
    (s.delete h).children p = (s.children p).filter (· ≠ h) := by
  have hfind := Branch.find?_remove s.shape hs.nodup hp fun c hc => by
    rw [← Option.some.inj (hb.symm.trans hc)]
    exact fun hin => hp (List.mem_singleton.mp hin)
  rw [children_eq, children_eq, branch?, branch?, delete_shape hh hb, hfind]
  cases Branch.find? p s.shape with
  | none => rfl
  | some b => exact b.childHandles_remove

/-- Deleting a widget with nothing inside leaves all others below their parents. -/
theorem Sound.parent?_delete_leaf (hs : s.Sound) (hh : h ≠ Handle.screen)
    (hb : s.branch? h = some (Branch.leaf h)) (hk : k ≠ h) :
    (s.delete h).parent? k = s.parent? k := by
  have ht := hs.delete h
  have hleaf : (Branch.leaf h).handles = [h] := rfl
  refine hs.parent?_eq ht fun p => ?_
  by_cases hp : p = h
  · subst hp
    have hbare : s.children p = [] := by
      rw [children_eq, hb]
      rfl
    rw [hbare]
    refine iff_of_false (fun hin => ?_) List.not_mem_nil
    have hlive := ht.parent?_live (ht.mem_children_iff.mp hin)
    rw [isLive, hs.widget?_delete hh hb, hleaf, if_pos List.mem_cons_self] at hlive
    cases hlive
  · rw [hs.children_delete_leaf hh hb hp, List.mem_filter, and_iff_left (by simpa using hk)]

/-- A widget that was made and deleted again. -/
theorem Stands.delete_new (hs : s.Sound) (ht : Stands s t) (hnew : s.isLive h = false)
    (hb : t.branch? h = some (Branch.leaf h)) : Stands s (t.delete h) := by
  have hne {k : Handle} (hl : s.isLive k = true) : k ≠ h := by
    rintro rfl
    rw [hnew] at hl
    cases hl
  have hh : h ≠ Handle.screen := (hne hs.screen_live).symm
  have hdead : (t.delete h).isLive h = false := by
    have hin : h ∈ (Branch.leaf h).handles := List.mem_singleton.mpr rfl
    rw [isLive, ht.sound.widget?_delete hh hb, if_pos hin]
    rfl
  have hlive {k : Handle} (hk : k ≠ h) : (t.delete h).isLive k = t.isLive k := by
    have hout : k ∉ (Branch.leaf h).handles := fun hin => hk (List.mem_singleton.mp hin)
    rw [isLive, isLive, ht.sound.widget?_delete hh hb, if_neg hout]
  refine ⟨ht.sound.delete h, fun k hl => (hlive (hne hl)).trans (ht.live k hl), fun k hl => ?_,
    fun i => ?_, fun k hl => ?_⟩
  · rw [ht.sound.parent?_delete_leaf hh hb (hne hl), ht.parent k hl]
  · rw [ht.sound.generationAt_delete]
    exact ht.generation i
  · have hk : k ≠ h := by
      rintro rfl
      rw [hdead] at hl
      cases hl
    exact ht.fresh k ((hlive hk).symm.trans hl)

end ScreenMarkup.Screen
