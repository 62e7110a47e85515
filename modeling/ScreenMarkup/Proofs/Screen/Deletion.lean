import ScreenMarkup.Proofs.Screen.Later
import ScreenMarkup.Proofs.Sorting

/-!
# Deletion

Deleting a widget takes it and everything below it from the screen, and nothing
else: whatever stays keeps its attributes, its parent and its order among its
siblings. What is below a widget can be told in two ways. The way up from it
passes the widget; and a queue that starts with the widget, and takes on the
children of each one it gives, gives it before it runs dry.
-/

set_option autoImplicit false

namespace ScreenMarkup

namespace Branch

variable {h k : Handle} {b c d : Branch} {bs : List Branch}

/-! ## Branches of branches -/

mutual
/-- What is found in a branch of a tree is what is found in the tree. -/
theorem find?_trans (b : Branch) (hn : b.handles.Nodup) (hc : find? h b = some c)
    (hd : find? k c = some d) : find? k b = some d := by
  obtain ⟨r, bs⟩ := b
  obtain ⟨hr, hbs⟩ := List.nodup_cons.mp hn
  rw [find?] at hc
  split at hc
  · cases hc
    exact hd
  · have hin : findAmong? k bs = some d := findAmong?_trans bs hbs hc hd
    have hrk : r ≠ k := by
      rintro rfl
      obtain ⟨hdr, hsub⟩ := findAmong?_eq_some bs hin
      exact hr (hdr ▸ hsub.subset d.handle_mem_handles)
    rw [find?, if_neg hrk, hin]
theorem findAmong?_trans (bs : List Branch) (hn : (handlesAll bs).Nodup)
    (hc : findAmong? h bs = some c) (hd : find? k c = some d) : findAmong? k bs = some d := by
  match bs with
  | [] => cases hc
  | b :: bs =>
    obtain ⟨hb, hbs, hapart⟩ := List.nodup_append.mp hn
    rw [findAmong?, Option.or_eq_some_iff] at hc
    rcases hc with hc | ⟨-, hc⟩
    · rw [findAmong?, find?_trans b hb hc hd, Option.some_or]
    · have hin : findAmong? k bs = some d := findAmong?_trans bs hbs hc hd
      have hout : k ∉ b.handles := by
        obtain ⟨hdk, hsub⟩ := findAmong?_eq_some bs hin
        exact fun hk => hapart k hk k (hdk ▸ hsub.subset d.handle_mem_handles) rfl
      rw [findAmong?, find?_eq_none b hout, Option.none_or, hin]
end

theorem handles_eq (b : Branch) : b.handles = b.handle :: handlesAll b.children := by
  cases b
  rfl

/-! ## The queue -/

/-- What a queue of branches gives that takes on the branches below each one it gives. -/
def queued : List Branch → List Handle
  | [] => []
  | node k bs :: queue => k :: queued (queue ++ bs)
termination_by queue => (handlesAll queue).length
decreasing_by simp [handlesAll_append, handlesAll, handles]; omega

/-- The branches some levels down. -/
def tier : Nat → List Branch → List Branch
  | 0, bs => bs
  | n + 1, bs => tier n (bs.flatMap children)

theorem tier_append (n : Nat) (bs cs : List Branch) :
    tier n (bs ++ cs) = tier n bs ++ tier n cs := by
  induction n generalizing bs cs with
  | zero => rfl
  | succ n ih => rw [tier, List.flatMap_append, ih]; rfl

theorem tier_nil (n : Nat) : tier n [] = [] := by
  induction n with
  | zero => rfl
  | succ n ih => exact ih

/-- What stands in the queue comes first, and all that is below it later. -/
theorem queued_append (bs cs : List Branch) :
    queued (bs ++ cs) = bs.map handle ++ queued (cs ++ bs.flatMap children) := by
  induction bs generalizing cs with
  | nil => simp
  | cons b bs ih =>
    obtain ⟨k, inner⟩ := b
    rw [List.cons_append, queued, List.append_assoc, ih, List.append_assoc]
    rfl

/-- The queue gives one level after the other. -/
theorem queued_eq_tiers (n : Nat) (bs : List Branch) :
    queued bs = (List.range n).flatMap (fun i => (tier i bs).map handle) ++
      queued (tier n bs) := by
  induction n generalizing bs with
  | zero => rfl
  | succ n ih =>
    have hfirst := queued_append bs []
    rw [List.append_nil, List.nil_append] at hfirst
    rw [hfirst, ih (bs.flatMap children), List.range_succ_eq_map, List.flatMap_cons,
      List.flatMap_map, List.append_assoc]
    rfl

mutual
/-- A branch has no more levels than handles. -/
theorem mem_depths (b : Branch) {n : Nat} {e : Nat × Handle} (he : e ∈ depths n b) :
    n ≤ e.1 ∧ e.1 < n + b.handles.length := by
  obtain ⟨k, bs⟩ := b
  rw [handles, List.length_cons]
  rcases List.mem_cons.mp he with rfl | he
  · exact ⟨Nat.le_refl n, by simp⟩
  · have := mem_depthsAll bs he
    omega
theorem mem_depthsAll (bs : List Branch) {n : Nat} {e : Nat × Handle}
    (he : e ∈ depthsAll n bs) : n ≤ e.1 ∧ e.1 < n + (handlesAll bs).length := by
  match bs with
  | [] => cases he
  | b :: bs =>
    rw [handlesAll, List.length_append]
    rcases List.mem_append.mp he with he | he
    · have := mem_depths b he
      omega
    · have := mem_depthsAll bs he
      omega
end

mutual
/-- The members of one depth in document order are those of one level. -/
theorem filter_depths (b : Branch) (n m : Nat) :
    ((depths n b).filter fun e => e.1 = n + m).map (·.2) = (tier m [b]).map handle := by
  obtain ⟨k, bs⟩ := b
  rw [depths]
  cases m with
  | zero =>
    have hnone : ((depthsAll (n + 1) bs).filter fun e => e.1 = n + 0) = [] := by
      refine List.filter_eq_nil_iff.mpr fun e he => ?_
      have := (mem_depthsAll bs he).1
      simp only [decide_eq_true_eq]
      omega
    rw [List.filter_cons_of_pos (by simp), hnone]
    rfl
  | succ m =>
    have hshift : n + (m + 1) = n + 1 + m := by omega
    rw [List.filter_cons_of_neg (by simp), hshift, filter_depthsAll bs (n + 1) m, tier,
      List.flatMap_singleton]
    rfl
theorem filter_depthsAll (bs : List Branch) (n m : Nat) :
    ((depthsAll n bs).filter fun e => e.1 = n + m).map (·.2) = (tier m bs).map handle := by
  match bs with
  | [] => rw [tier_nil]; rfl
  | b :: bs =>
    rw [depthsAll, List.filter_append, List.map_append, filter_depths b n m,
      filter_depthsAll bs n m, ← List.map_append, ← tier_append, List.singleton_append]
end

/-- The levels of a branch are what a queue gives that starts with it. -/
theorem levels_eq_queued (b : Branch) : b.levels = queued [b] := by
  obtain ⟨n, hn⟩ : ∃ n, ∀ e ∈ depths 0 b, e.1 < n :=
    ⟨0 + b.handles.length, fun e he => (mem_depths b he).2⟩
  have hlevel (i : Nat) :
      ((depths 0 b).filter fun e => e.1 = i).map (·.2) = (tier i [b]).map handle := by
    rw [← filter_depths b 0 i, Nat.zero_add]
  have hend : (tier n [b]).map handle = [] := by
    rw [← hlevel, List.map_eq_nil_iff, List.filter_eq_nil_iff]
    intro e he
    have := hn e he
    simp only [decide_eq_true_eq]
    omega
  have hrange : ∀ e ∈ (depths 0 b).mergeSort fun e e' => e.1 ≤ e'.1, e.1 ∈ List.range n :=
    fun e he => List.mem_range.mpr (hn e (List.mem_mergeSort.mp he))
  have hsorted := flatMap_filter_eq List.pairwise_lt_range (pairwise_mergeSort_key (depths 0 b))
    hrange
  rw [queued_eq_tiers n [b], List.map_eq_nil_iff.mp hend, queued, List.append_nil, levels,
    ← hsorted, List.map_flatMap]
  refine List.flatMap_congr fun i _ => ?_
  rw [filter_mergeSort, hlevel]

end Branch

namespace Screen

variable {s t u : Screen} {h k p : Handle}

/-! ## What is below a widget -/

theorem descendants_eq {b : Branch} (hb : s.branch? h = some b) :
    s.descendants h = Branch.handlesAll b.children := by
  rw [descendants, hb]
  rfl

theorem descendants_eq_nil (hb : s.branch? h = none) : s.descendants h = [] := by
  rw [descendants, hb]
  rfl

theorem branch?_handles {b : Branch} (hb : s.branch? h = some b) :
    b.handles = h :: s.descendants h := by
  rw [Branch.handles_eq, (Branch.find?_eq_some s.shape hb).1, descendants_eq hb]

theorem Sound.exists_branch (hs : s.Sound) (hl : s.isLive h = true) :
    ∃ b, s.branch? h = some b :=
  Option.isSome_iff_exists.mp (Branch.find?_isSome s.shape (hs.mem_handles hl))

theorem Sound.descendants_live (hs : s.Sound) (hk : k ∈ s.descendants h) :
    s.isLive k = true := by
  cases hb : s.branch? h with
  | none =>
    rw [descendants_eq_nil hb] at hk
    cases hk
  | some b =>
    have hsub := (Branch.find?_eq_some s.shape hb).2
    exact (hs.live k).mp (hsub.subset (branch?_handles hb ▸ List.mem_cons_of_mem h hk))

/-- The children of what is below a widget are below it too. -/
theorem Sound.mem_descendants_of_parent (hs : s.Sound) (hk : s.parent? k = some p)
    (hp : p = h ∨ p ∈ s.descendants h) : k ∈ s.descendants h := by
  obtain ⟨c, hc, hmem⟩ := mem_children.mp (hs.mem_children_iff.mpr hk)
  have hkc : k ∈ Branch.handlesAll c.children := by
    have hsub := c.childHandles_sublist
    rw [Branch.handles_eq] at hsub
    exact ((List.cons_sublist_cons.mp hsub).subset hmem)
  rcases hp with rfl | hp
  · exact descendants_eq hc ▸ hkc
  · cases hb : s.branch? h with
    | none =>
      rw [descendants_eq_nil hb] at hp
      cases hp
    | some b =>
      rw [descendants_eq hb] at hp ⊢
      obtain ⟨d, hd⟩ := Option.isSome_iff_exists.mp (Branch.findAmong?_isSome b.children hp)
      have hbn : b.handles.Nodup := (Branch.find?_eq_some s.shape hb).2.nodup hs.nodup
      have hbp : b.handle ≠ p := by
        rintro rfl
        rw [Branch.handles_eq] at hbn
        exact (List.nodup_cons.mp hbn).1 hp
      have hpb : Branch.find? p b = some d := by
        obtain ⟨r, bs⟩ := b
        exact (if_neg hbp).trans hd
      have hdc : d = c :=
        Option.some.inj ((Branch.find?_trans s.shape hs.nodup hb hpb).symm.trans hc)
      exact (Branch.findAmong?_eq_some b.children hd).2.subset
        (Branch.handles_eq d ▸ hdc ▸ List.mem_cons_of_mem _ hkc)

theorem climb_succ (n : Nat) (k : Handle) :
    s.climb (n + 1) k = (s.climb n k).bind s.parent? := by
  induction n generalizing k with
  | zero => exact Option.bind_fun_some (s.parent? k)
  | succ n ih =>
    rw [climb, climb]
    cases s.parent? k with
    | none => rfl
    | some p => exact ih p

/-- Every step up leaves one handle less above. -/
theorem Sound.ancestors_of_parent (hs : s.Sound) (hk : s.parent? k = some p) :
    s.ancestors k = p :: s.ancestors p := by
  obtain ⟨as, ha⟩ := parent?_eq_some.mp hk
  rw [ancestors, ancestors, ha, (Branch.above?_cons s.shape hs.nodup ha).1]
  rfl

theorem Sound.climb_length (hs : s.Sound) {n : Nat} (hn : s.climb n k = some h) :
    (s.ancestors k).length = n + (s.ancestors h).length := by
  induction n generalizing k with
  | zero =>
    cases hn
    rw [Nat.zero_add]
  | succ n ih =>
    obtain ⟨p, hp, hn⟩ := Option.bind_eq_some_iff.mp hn
    rw [hs.ancestors_of_parent hp, List.length_cons, ih hn]
    omega

theorem Sound.climb_descendant (hs : s.Sound) {n : Nat} (hn : s.climb (n + 1) k = some h) :
    k ∈ s.descendants h := by
  induction n generalizing k with
  | zero =>
    obtain ⟨p, hp, hn⟩ := Option.bind_eq_some_iff.mp hn
    exact hs.mem_descendants_of_parent hp (.inl (Option.some.inj hn))
  | succ n ih =>
    obtain ⟨p, hp, hn⟩ := Option.bind_eq_some_iff.mp hn
    exact hs.mem_descendants_of_parent hp (.inr (ih hn))

/-- The way up inside a branch leads to the widget that it starts with. -/
theorem Sound.climb_branch (hs : s.Sound) {b : Branch} (hb : s.branch? h = some b)
    {as : List Handle} (ha : b.above? k = some as) : s.climb as.length k = some h := by
  obtain ⟨hbh, hsub⟩ := Branch.find?_eq_some s.shape hb
  induction as generalizing k with
  | nil => rw [List.length_nil, climb, Branch.above?_eq_nil.mp ha, hbh]
  | cons p as ih =>
    obtain ⟨hp, c, hc, hmem⟩ := Branch.above?_cons b (hsub.nodup hs.nodup) ha
    have hpc : s.branch? p = some c := Branch.find?_trans s.shape hs.nodup hb hc
    have hk : s.parent? k = some p := hs.mem_children_iff.mp (mem_children.mpr ⟨c, hpc, hmem⟩)
    rw [List.length_cons, climb, hk, Option.bind_some]
    exact ih hp

/-- Below a widget is what the way up leads to it from, in one step at least. -/
theorem Sound.mem_descendants_iff (hs : s.Sound) :
    k ∈ s.descendants h ↔ ∃ n, s.climb (n + 1) k = some h := by
  refine ⟨fun hk => ?_, fun ⟨n, hn⟩ => hs.climb_descendant hn⟩
  cases hb : s.branch? h with
  | none =>
    rw [descendants_eq_nil hb] at hk
    cases hk
  | some b =>
    obtain ⟨hbh, hsub⟩ := Branch.find?_eq_some s.shape hb
    have hn := hsub.nodup hs.nodup
    rw [branch?_handles hb] at hn
    have hkb : k ∈ b.handles := branch?_handles hb ▸ List.mem_cons_of_mem h hk
    obtain ⟨as, ha⟩ := Option.isSome_iff_exists.mp (Branch.above?_isSome b hkb)
    cases as with
    | nil =>
      have hkh : k = h := (Branch.above?_eq_nil.mp ha).trans hbh
      exact absurd (hkh ▸ hk) (List.nodup_cons.mp hn).1
    | cons p as => exact ⟨as.length, hs.climb_branch hb ha⟩

/-- A widget and what is below it. -/
def family (s : Screen) (h : Handle) : List Handle := h :: s.descendants h

theorem Sound.mem_family_iff (hs : s.Sound) :
    k ∈ s.family h ↔ ∃ n, s.climb n k = some h := by
  rw [family, List.mem_cons, hs.mem_descendants_iff]
  constructor
  · rintro (rfl | ⟨n, hn⟩)
    · exact ⟨0, rfl⟩
    · exact ⟨n + 1, hn⟩
  · rintro ⟨_ | n, hn⟩
    · exact .inl (Option.some.inj hn)
    · exact .inr ⟨n, hn⟩

theorem Sound.mem_family_of_parent (hs : s.Sound) (hk : s.parent? k = some p)
    (hp : p ∈ s.family h) : k ∈ s.family h :=
  List.mem_cons_of_mem h (hs.mem_descendants_of_parent hk (List.mem_cons.mp hp))

/-- No widget is below its own child. -/
theorem Sound.parent_not_mem_family (hs : s.Sound) (hk : s.parent? k = some p) :
    p ∉ s.family k := by
  intro hp
  obtain ⟨n, hn⟩ := hs.mem_family_iff.mp hp
  have hup := hs.climb_length hn
  rw [hs.ancestors_of_parent hk, List.length_cons] at hup
  omega

/-- Below a widget are its children with what is below them. -/
theorem Sound.mem_descendants_iff_children (hs : s.Sound) :
    k ∈ s.descendants h ↔ ∃ c ∈ s.children h, k ∈ s.family c := by
  rw [hs.mem_descendants_iff]
  constructor
  · rintro ⟨n, hn⟩
    rw [climb_succ] at hn
    obtain ⟨c, hc, hp⟩ := Option.bind_eq_some_iff.mp hn
    exact ⟨c, hs.mem_children_iff.mpr hp, hs.mem_family_iff.mpr ⟨n, hc⟩⟩
  · rintro ⟨c, hc, hk⟩
    obtain ⟨n, hn⟩ := hs.mem_family_iff.mp hk
    exact ⟨n, by rw [climb_succ, hn, Option.bind_some, hs.mem_children_iff.mp hc]⟩

/-- A deletion empties the places of what the queue gives, in this order, and the queue gives the
widget and what is below it, each once. -/
theorem Sound.delete_by_queue (hs : s.Sound) (hl : s.isLive h = true) (hh : h ≠ Handle.screen) :
    ∃ b, s.branch? h = some b ∧
      s.delete h = { (Branch.queued [b]).foldl release s with shape := s.shape.remove h } ∧
      (Branch.queued [b]).Perm (s.family h) := by
  obtain ⟨b, hb⟩ := hs.exists_branch hl
  have hperm := b.levels_perm
  rw [branch?_handles hb, Branch.levels_eq_queued] at hperm
  exact ⟨b, hb, by rw [delete_eq hh hb, Branch.levels_eq_queued], hperm⟩

/-! ## Removing -/

/-- `t` is `s` without some of its widgets, and with all else of it. -/
structure Removes (s t : Screen) (gone : List Handle) : Prop where
  live : ∀ k ∈ gone, s.isLive k = true
  widget? : ∀ k, t.widget? k = if k ∈ gone then none else s.widget? k
  parent? : ∀ k, t.parent? k = if k ∈ gone then none else s.parent? k
  children : ∀ k, t.children k = if k ∈ gone then [] else (s.children k).filter (· ∉ gone)
  pointer : t.pointer = s.pointer
  clock : t.clock = s.clock

theorem Removes.refl (s : Screen) : Removes s s [] where
  live k hk := absurd hk List.not_mem_nil
  widget? k := rfl
  parent? k := rfl
  children k := by simp
  pointer := rfl
  clock := rfl

theorem Removes.congr {gone gone' : List Handle} (hr : Removes s t gone)
    (hg : ∀ k, k ∈ gone' ↔ k ∈ gone) : Removes s t gone' where
  live k hk := hr.live k ((hg k).mp hk)
  widget? k := by simp only [hg, hr.widget?]
  parent? k := by simp only [hg, hr.parent?]
  children k := by simp only [hg, hr.children]
  pointer := hr.pointer
  clock := hr.clock

theorem Removes.isLive_iff {gone : List Handle} (hr : Removes s t gone) :
    t.isLive k = true ↔ s.isLive k = true ∧ k ∉ gone := by
  rw [isLive, hr.widget?]
  split
  · next hk => simp [hk]
  · next hk => simp [hk, isLive]

theorem Removes.trans {gone gone' : List Handle} (hr : Removes s t gone)
    (hr' : Removes t u gone') : Removes s u (gone ++ gone') where
  live k hk := by
    rcases List.mem_append.mp hk with hk | hk
    · exact hr.live k hk
    · exact (hr.isLive_iff.mp (hr'.live k hk)).1
  widget? k := by
    rw [hr'.widget?, hr.widget?]
    by_cases hk : k ∈ gone <;> by_cases hk' : k ∈ gone' <;> simp [hk, hk']
  parent? k := by
    rw [hr'.parent?, hr.parent?]
    by_cases hk : k ∈ gone <;> by_cases hk' : k ∈ gone' <;> simp [hk, hk']
  children k := by
    rw [hr'.children, hr.children]
    by_cases hk : k ∈ gone <;> by_cases hk' : k ∈ gone' <;>
      simp [hk, hk', List.filter_filter, Bool.and_comm]
  pointer := hr'.pointer.trans hr.pointer
  clock := hr'.clock.trans hr.clock

/-- What is removed takes along what is below it, so the way up of what stays stays. -/
theorem Removes.climb {gone : List Handle} (hr : Removes s t gone)
    (hclosed : ∀ k p, s.parent? k = some p → p ∈ gone → k ∈ gone) (hk : k ∉ gone) (n : Nat) :
    t.climb n k = s.climb n k := by
  induction n generalizing k with
  | zero => rfl
  | succ n ih =>
    rw [Screen.climb, Screen.climb, hr.parent?, if_neg hk]
    cases hp : s.parent? k with
    | none => rfl
    | some p => exact ih fun hin => hk (hclosed k p hp hin)

/-- Parents follow from the lists of children. -/
theorem Sound.parent?_removed (hs : s.Sound) (ht : t.Sound) {gone : List Handle}
    (hclosed : ∀ k p, s.parent? k = some p → p ∈ gone → k ∈ gone)
    (hc : ∀ k, t.children k = if k ∈ gone then [] else (s.children k).filter (· ∉ gone))
    (k : Handle) : t.parent? k = if k ∈ gone then none else s.parent? k := by
  have hmem (p : Handle) : t.parent? k = some p ↔ k ∉ gone ∧ s.parent? k = some p := by
    rw [← ht.mem_children_iff, ← hs.mem_children_iff, hc]
    split
    · next hp =>
      refine iff_of_false List.not_mem_nil fun hk => hk.1 ?_
      exact hclosed k p (hs.mem_children_iff.mp hk.2) hp
    · simp [and_comm]
  refine Option.ext fun p => (hmem p).trans ?_
  split
  · next hk => simp [hk]
  · next hk => simp [hk]

theorem pointer_releaseAll (ks : List Handle) : (ks.foldl release s).pointer = s.pointer := by
  induction ks generalizing s with
  | nil => rfl
  | cons k ks ih => exact ih

theorem clock_releaseAll (ks : List Handle) : (ks.foldl release s).clock = s.clock := by
  induction ks generalizing s with
  | nil => rfl
  | cons k ks ih => exact ih

/-- Of the children of a widget that stays, only the deleted one goes. -/
theorem Sound.child_mem_family (hs : s.Sound) {c : Handle} (hc : c ∈ s.children k)
    (hk : k ∉ s.family h) : c ∈ s.family h ↔ c = h := by
  refine ⟨fun hin => ?_, fun he => he ▸ List.mem_cons_self⟩
  obtain ⟨n, hn⟩ := hs.mem_family_iff.mp hin
  cases n with
  | zero => exact Option.some.inj hn
  | succ n =>
    rw [climb, hs.mem_children_iff.mp hc, Option.bind_some] at hn
    exact absurd (hs.mem_family_iff.mpr ⟨n, hn⟩) hk

/-- The lists of children after a deletion, of widgets that stay and of others. -/
theorem Sound.children_after_delete (hs : s.Sound) (hh : h ≠ Handle.screen) {b : Branch}
    (hb : s.branch? h = some b) (k : Handle) :
    (s.delete h).children k =
      if k ∈ s.family h then [] else (s.children k).filter (· ∉ s.family h) := by
  have hfamily : b.handles = s.family h := branch?_handles hb
  split
  · next hk =>
    have hout : k ∉ (s.delete h).shape.handles := by
      rw [hs.live_delete hh hb, isLive, hs.widget?_delete hh hb, hfamily, if_pos hk]
      exact Bool.false_ne_true
    rw [children_eq, branch?, Branch.find?_eq_none _ hout]
    rfl
  · next hk =>
    have hkh : k ≠ h := fun he => hk (he ▸ List.mem_cons_self)
    have hfind := Branch.find?_remove s.shape hs.nodup hkh
      fun c hc => Option.some.inj (hb.symm.trans hc) ▸ hfamily ▸ hk
    have hfilter : (s.delete h).children k = (s.children k).filter (· ≠ h) := by
      rw [children_eq, children_eq, branch?, delete_shape hh hb, hfind, branch?]
      cases Branch.find? k s.shape with
      | none => rfl
      | some d => exact Branch.childHandles_remove d
    rw [hfilter]
    refine List.filter_congr fun c hc => ?_
    simp [hs.child_mem_family hc hk]

theorem Sound.removes_delete (hs : s.Sound) (hl : s.isLive h = true)
    (hh : h ≠ Handle.screen) : Removes s (s.delete h) (s.family h) := by
  obtain ⟨b, hb⟩ := hs.exists_branch hl
  refine ⟨fun k hk => ?live, fun k => ?widget, ?parent, hs.children_after_delete hh hb,
    ?pointer, ?clock⟩
  case live =>
    rcases List.mem_cons.mp hk with rfl | hk
    · exact hl
    · exact hs.descendants_live hk
  case widget =>
    rw [hs.widget?_delete hh hb, branch?_handles hb, family]
  case parent =>
    exact hs.parent?_removed (hs.delete h) (fun _ _ => hs.mem_family_of_parent)
      (hs.children_after_delete hh hb)
  case pointer =>
    rw [delete_eq hh hb]
    exact pointer_releaseAll b.levels
  case clock =>
    rw [delete_eq hh hb]
    exact clock_releaseAll b.levels

/-- A deletion elsewhere takes from what is below a widget only what it deletes. -/
theorem Removes.mem_family_iff {gone : List Handle} (hr : Removes s t gone) (hs : s.Sound)
    (ht : t.Sound) (hclosed : ∀ k p, s.parent? k = some p → p ∈ gone → k ∈ gone) :
    (k ∈ t.family h ∨ k ∈ gone) ↔ (k ∈ s.family h ∨ k ∈ gone) := by
  by_cases hk : k ∈ gone
  · simp [hk]
  · simp only [hk, or_false, hs.mem_family_iff, ht.mem_family_iff, hr.climb hclosed hk]

/-- Deleting siblings one after the other removes all of them with what is below them. -/
theorem Sound.removes_deleteAll (hs : s.Sound) {ks : List Handle} (hn : ks.Nodup)
    (hk : ∀ k ∈ ks, s.parent? k = some p) :
    Removes s (ks.foldl Screen.delete s) (ks.flatMap s.family) := by
  induction ks generalizing s with
  | nil => exact Removes.refl s
  | cons k ks ih =>
    obtain ⟨hnk, hn⟩ := List.nodup_cons.mp hn
    have hparent : s.parent? k = some p := hk k List.mem_cons_self
    have hne : k ≠ Handle.screen := fun he => by
      rw [he, hs.screen_parent?] at hparent
      cases hparent
    have hclosed (c q : Handle) (hq : s.parent? c = some q) (hin : q ∈ s.family k) :
        c ∈ s.family k := hs.mem_family_of_parent hq hin
    have hfirst : Removes s (s.delete k) (s.family k) :=
      hs.removes_delete (hs.live_of_parent? hparent) hne
    have hrest := ih (hs.delete k) hn fun c hc => by
      have hcp : s.parent? c = some p := hk c (List.mem_cons_of_mem k hc)
      have hout : c ∉ s.family k := fun hin => by
        have he := (hs.child_mem_family (hs.mem_children_iff.mpr hcp)
          (hs.parent_not_mem_family hparent)).mp hin
        exact hnk (he ▸ hc)
      rw [hfirst.parent?, if_neg hout, hcp]
    refine (hfirst.trans hrest).congr fun c => ?_
    have hsame (d : Handle) := hfirst.mem_family_iff (k := c) (h := d) hs (hs.delete k) hclosed
    simp only [List.flatMap_cons, List.mem_append, List.mem_flatMap]
    grind

theorem Sound.removes_clean (hs : s.Sound) (h : Handle) :
    Removes s (s.clean h) (s.descendants h) := by
  have hchildren := hs.removes_deleteAll (hs.children_nodup h) fun k => hs.mem_children_iff.mp
  refine hchildren.congr fun k => ?_
  rw [hs.mem_descendants_iff_children, List.mem_flatMap]

/-- Nothing is deleted with the screen or with a handle that names no widget. -/
theorem Sound.delete_nothing (hs : s.Sound) (hh : h = Handle.screen ∨ s.isLive h = false) :
    s.delete h = s := by
  rcases delete_eq_or s h with he | ⟨hne, b, hb⟩
  · exact he
  · have hin : h ∈ s.shape.handles := by
      obtain ⟨hbh, hsub⟩ := Branch.find?_eq_some s.shape hb
      exact hsub.subset (hbh ▸ b.handle_mem_handles)
    have hl : s.isLive h = true := (hs.live h).mp hin
    rcases hh with hh | hh
    · exact absurd hh hne
    · rw [hl] at hh
      cases hh

end Screen

/-! ## Runs of all operations -/

/-- What changes a screen. Every handle may be live, deleted or the screen. -/
inductive ScreenOperation where
  | arrange (o : TreeOperation)
  | setPos (widget : Handle) (x y : Int)
  | setSize (widget : Handle) (width height : Int)
  | align (widget : Handle) (a : Align) (shift : Offset)
  | setHidden (widget : Handle) (b : Bool)
  | applyStyle (widget : Handle) (p : StyleChange)
  | clearStyle (widget : Handle)
  | setText (widget : Handle) (text : String)
  | setChecked (widget : Handle) (b : Bool)
  | setRange (widget : Handle) (low high : Int)
  | setValue (widget : Handle) (value : Int)
  | configure (widget : Handle) (setting : Setting)
  | setSpans (widget : Handle) (spans : List Span)
  | invalidate (widget : Handle)
  | setActiveTile (view tile : Handle)
  | setFocused (widget : Handle) (b : Bool)
  | setPointer (p : Offset)
  | advance (ms : Nat)
deriving Inhabited

def ScreenOperation.perform (o : ScreenOperation) (s : Screen) : Screen :=
  match o with
  | arrange o => o.perform s
  | setPos widget x y => s.setPos widget x y
  | setSize widget width height => s.setSize widget width height
  | align widget a shift => s.align widget a shift
  | setHidden widget b => s.setHidden widget b
  | applyStyle widget p => s.applyStyle widget p
  | clearStyle widget => s.clearStyle widget
  | setText widget text => s.setText widget text
  | setChecked widget b => s.setChecked widget b
  | setRange widget low high => s.setRange widget low high
  | setValue widget value => s.setValue widget value
  | configure widget setting => s.configure widget setting
  | setSpans widget spans => s.setSpans widget spans
  | invalidate widget => s.invalidate widget
  | setActiveTile view tile => s.setActiveTile view tile
  | setFocused widget b => s.setFocused widget b
  | setPointer p => s.setPointer p
  | advance ms => s.advance ms

namespace Screen

variable {s : Screen}

/-- The screen after some operations, in order. -/
def after (s : Screen) (os : List ScreenOperation) : Screen :=
  os.foldl (fun s o => o.perform s) s

theorem operate_sound (hs : s.Sound) (o : ScreenOperation) : (o.perform s).Sound := by
  cases o with
  | arrange o => exact hs.perform o
  | setPointer p => exact (later_pointer s p hs).sound
  | advance ms => exact (later_advance s ms hs).sound
  | _ => exact (later_modify s _ _ hs).sound

theorem after_sound (hs : s.Sound) (os : List ScreenOperation) : (s.after os).Sound := by
  induction os generalizing s with
  | nil => exact hs
  | cons o os ih => exact ih (operate_sound hs o)

/-- Whatever was done to a screen before, a deletion takes the widget with all that is below it, and
cleaning a widget takes all that is below it. Everything else stays as it is, with its attributes,
its parent and the order of its children. -/
theorem deletion_exact (size : Size) (os : List ScreenOperation) :
    let s := (Screen.new size).after os
    (∀ h, s.isLive h = true → h ≠ Handle.screen →
      Removes s (s.delete h) (h :: s.descendants h)) ∧
    (∀ h, h = Handle.screen ∨ s.isLive h = false → s.delete h = s) ∧
    (∀ h, s.isLive h = true → Removes s (s.clean h) (s.descendants h)) ∧
    (∀ h k, k ∈ s.descendants h ↔ ∃ n, s.climb (n + 1) k = some h) := by
  intro s
  have hs : s.Sound := after_sound (sound_new size) os
  exact ⟨fun h => hs.removes_delete, fun h => hs.delete_nothing, fun h _ => hs.removes_clean h,
    fun h k => hs.mem_descendants_iff⟩

/-- A page goes with its button and the label on it, and the other page stays. -/
theorem deletion_exact_of_page :
    let s := (Screen.new ⟨480, 320⟩).after [.arrange (.create .page Handle.screen),
      .arrange (.create .button ⟨1, 1⟩), .arrange (.create .page Handle.screen),
      .arrange (.create .label ⟨2, 1⟩)]
    Removes s (s.delete ⟨1, 1⟩) [⟨1, 1⟩, ⟨2, 1⟩, ⟨4, 1⟩] ∧
      (s.delete ⟨1, 1⟩).children Handle.screen = [⟨3, 1⟩] := by
  intro s
  have hlive : s.isLive ⟨1, 1⟩ = true := by decide +kernel
  have hbelow : s.descendants ⟨1, 1⟩ = [⟨2, 1⟩, ⟨4, 1⟩] := by decide +kernel
  have hremoves := (deletion_exact ⟨480, 320⟩ [.arrange (.create .page Handle.screen),
    .arrange (.create .button ⟨1, 1⟩), .arrange (.create .page Handle.screen),
    .arrange (.create .label ⟨2, 1⟩)]).1 ⟨1, 1⟩ hlive (by decide)
  exact ⟨hbelow ▸ hremoves, by decide +kernel⟩

end Screen
end ScreenMarkup
