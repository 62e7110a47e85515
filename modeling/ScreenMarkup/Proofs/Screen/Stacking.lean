import ScreenMarkup.Control.Basic
import ScreenMarkup.Proofs.Screen.Later
import ScreenMarkup.Proofs.Sorting

/-!
# Stacking siblings

Controls from all over the tree are sorted together, and then their widgets
are moved one by one. A move changes the siblings of its widget only, so every
list of siblings sees the moves of its own widgets in the order of the sort.
-/

set_option autoImplicit false

namespace ScreenMarkup

/-! ## A tree is told by its children -/

namespace Branch

variable {b c d : Branch} {h k : Handle}

mutual
/-- What is found in a branch that is found is found from above too. -/
theorem find?_of_find? (b : Branch) (hn : b.handles.Nodup) (hf : find? k b = some c)
    (hh : h ∈ c.handles) : find? h b = find? h c := by
  obtain ⟨j, bs⟩ := b
  obtain ⟨hj, hbs⟩ := List.nodup_cons.mp hn
  rw [find?] at hf
  split at hf
  · cases hf
    rfl
  · have hin := (findAmong?_eq_some bs hf).2.subset hh
    have hjh : j ≠ h := fun he => hj (he ▸ hin)
    rw [find?, if_neg hjh]
    exact findAmong?_of_findAmong? bs hbs hf hh
theorem findAmong?_of_findAmong? (bs : List Branch) (hn : (handlesAll bs).Nodup)
    (hf : findAmong? k bs = some c) (hh : h ∈ c.handles) : findAmong? h bs = find? h c := by
  match bs with
  | [] => cases hf
  | b :: bs =>
    obtain ⟨hb, hbs, hapart⟩ := List.nodup_append.mp hn
    rw [findAmong?] at hf ⊢
    cases hfind : find? k b with
    | some d =>
      rw [hfind, Option.some_or] at hf
      cases hf
      rw [find?_of_find? b hb hfind hh]
      exact Option.or_of_isSome (find?_isSome c hh)
    | none =>
      rw [hfind, Option.none_or] at hf
      have hin := (findAmong?_eq_some bs hf).2.subset hh
      rw [find?_eq_none b fun hhb => hapart h hhb h hin rfl, Option.none_or]
      exact findAmong?_of_findAmong? bs hbs hf hh
end

theorem find?_self (b : Branch) : find? b.handle b = some b := by
  obtain ⟨k, bs⟩ := b
  exact if_pos rfl

theorem findAmong?_self {bs : List Branch} (hn : (handlesAll bs).Nodup) (hb : b ∈ bs) :
    findAmong? b.handle bs = some b := by
  induction bs with
  | nil => cases hb
  | cons c bs ih =>
    obtain ⟨-, hbs, hapart⟩ := List.nodup_append.mp hn
    rw [findAmong?]
    rcases List.mem_cons.mp hb with rfl | hb
    · rw [find?_self, Option.some_or]
    · have hfind := ih hbs hb
      have hin := (findAmong?_eq_some bs hfind).2.subset b.handle_mem_handles
      rw [find?_eq_none c fun hc => hapart _ hc _ hin rfl, Option.none_or, hfind]

/-- What stands right below a branch that is found is found from above. -/
theorem find?_child (hn : b.handles.Nodup) (hf : find? k b = some c) (hd : d ∈ c.children) :
    find? d.handle b = some d := by
  have hc := (find?_eq_some b hf).2.nodup hn
  obtain ⟨j, cs⟩ := c
  obtain ⟨hj, hcs⟩ := List.nodup_cons.mp hc
  have hfind : findAmong? d.handle cs = some d := findAmong?_self hcs hd
  have hin := (findAmong?_eq_some cs hfind).2.subset d.handle_mem_handles
  have hjd : j ≠ d.handle := fun he => hj (he ▸ hin)
  rw [find?_of_find? b hn hf (List.mem_cons_of_mem j hin), find?, if_neg hjd, hfind]

/-- Branches at one place of two trees are the same when everything has the same children. -/
theorem eq_of_childHandles {a b : Branch} (ha : a.handles.Nodup) (hb : b.handles.Nodup)
    (hall : ∀ k, ((find? k a).map childHandles).getD [] = ((find? k b).map childHandles).getD [])
    {k : Handle} {c d : Branch} (hc : find? k a = some c) (hd : find? k b = some d) : c = d := by
  have hhandles : c.childHandles = d.childHandles := by simpa [hc, hd] using hall k
  have hlength : c.children.length = d.children.length := by
    simpa [childHandles] using congrArg List.length hhandles
  have hchildren : c.children = d.children := by
    refine List.ext_getElem hlength fun i hi hi' => ?_
    have hc' := find?_child ha hc (List.getElem_mem hi)
    have hd' := find?_child hb hd (List.getElem_mem hi')
    have hsame : (c.children[i]).handle = (d.children[i]).handle := by
      have hi := congrArg (·[i]?) hhandles
      simpa [childHandles, *] using hi
    rw [← hsame] at hd'
    exact eq_of_childHandles ha hb hall hc' hd'
  have hk := (find?_eq_some a hc).1.trans (find?_eq_some b hd).1.symm
  cases c
  cases d
  exact congrArg₂ node hk hchildren
termination_by sizeOf c
decreasing_by
  obtain ⟨j, cs⟩ := c
  have hlt := List.sizeOf_lt_of_mem (List.getElem_mem hi)
  simp only [node.sizeOf_spec, children] at hlt ⊢
  omega

end Branch

namespace Screen

variable {s t : Screen} {h k p : Handle}

/-- Sound screens on which everything has the same children have the same tree. -/
theorem Sound.shape_eq (hs : s.Sound) (ht : t.Sound)
    (hc : ∀ h, t.children h = s.children h) : t.shape = s.shape := by
  have hroot {u : Screen} (hu : u.Sound) : Branch.find? Handle.screen u.shape = some u.shape :=
    hu.root ▸ u.shape.find?_self
  exact Branch.eq_of_childHandles ht.nodup hs.nodup hc (hroot ht) (hroot hs)

/-! ## Moves to both ends -/

/-- A change of the order below one handle is seen in the children of that handle only. -/
theorem Sound.children_rearrange (hs : s.Sound) {f : List Branch → List Branch}
    {g : List Handle → List Handle} (ht : t.shape = s.shape.modify p f)
    (hf : ∀ bs, (f bs).Perm bs) (hg : ∀ bs, (f bs).map Branch.handle = g (bs.map Branch.handle))
    (k : Handle) : t.children k = if k = p then g (s.children k) else s.children k := by
  have hsearch (k : Handle) (bs : List Branch) (hn : (Branch.handlesAll bs).Nodup) :
      Branch.findAmong? k (f bs) = Branch.findAmong? k bs :=
    Branch.findAmong?_perm (hf bs).symm hn
  split
  · next hk =>
    subst hk
    rw [hs.children_modify_self ht (hsearch k), children_eq]
    cases s.branch? k with
    | none =>
      have hnil : g [] = [] := by rw [← List.map_nil, ← hg, (hf []).eq_nil, List.map_nil]
      exact hnil.symm
    | some b => exact hg b.children
  · next hk => exact hs.children_modify ht hk (hsearch k)

/-- The widget before its siblings, in a list of siblings that has it. -/
def toBack (cs : List Handle) (h : Handle) : List Handle :=
  cs.filter (· = h) ++ cs.filter (· ≠ h)

/-- The widget behind its siblings, in a list of siblings that has it. -/
def toFront (cs : List Handle) (h : Handle) : List Handle :=
  cs.filter (· ≠ h) ++ cs.filter (· = h)

theorem toBack_of_not_mem {cs : List Handle} (hh : h ∉ cs) : toBack cs h = cs := by
  have hne : ∀ k ∈ cs, k ≠ h := fun k hk he => hh (he ▸ hk)
  have hmoved : cs.filter (· = h) = [] := List.filter_eq_nil_iff.mpr (by simpa using hne)
  have hothers : cs.filter (· ≠ h) = cs := List.filter_eq_self.mpr (by simpa using hne)
  rw [toBack, hmoved, hothers, List.nil_append]

theorem toFront_of_not_mem {cs : List Handle} (hh : h ∉ cs) : toFront cs h = cs := by
  have hne : ∀ k ∈ cs, k ≠ h := fun k hk he => hh (he ▸ hk)
  have hmoved : cs.filter (· = h) = [] := List.filter_eq_nil_iff.mpr (by simpa using hne)
  have hothers : cs.filter (· ≠ h) = cs := List.filter_eq_self.mpr (by simpa using hne)
  rw [toFront, hmoved, hothers, List.append_nil]

/-- A move of a widget below its parent, which leaves lists alone that do not have the widget. -/
theorem Sound.children_move (hs : s.Sound) {f : List Branch → List Branch}
    {g : List Handle → List Handle} (hp : s.parent? h = some p) (ht : t.shape = s.shape.modify p f)
    (hf : ∀ bs, (f bs).Perm bs) (hg : ∀ bs, (f bs).map Branch.handle = g (bs.map Branch.handle))
    (hout : ∀ cs, h ∉ cs → g cs = cs) (k : Handle) : t.children k = g (s.children k) := by
  rw [hs.children_rearrange ht hf hg]
  split
  · rfl
  · next hk =>
    refine (hout _ fun hin => ?_).symm
    rw [hs.mem_children_iff, hp] at hin
    exact hk (Option.some.inj hin).symm

theorem Sound.not_mem_children (hs : s.Sound) (hp : s.parent? h = none) : h ∉ s.children k := by
  rw [hs.mem_children_iff, hp]
  exact nofun

theorem Sound.children_moveTo_zero (hs : s.Sound) (h k : Handle) :
    (s.moveTo h 0).children k = toBack (s.children k) h := by
  unfold Screen.moveTo
  cases hp : s.parent? h with
  | none => exact (toBack_of_not_mem (hs.not_mem_children hp)).symm
  | some p =>
    refine hs.children_move (g := (toBack · h)) hp rfl (Branch.relocate_perm h 0) (fun bs => ?_)
      (fun _ => toBack_of_not_mem) k
    simp [Branch.relocate, toBack, List.filter_map, Function.comp_def]

theorem Sound.children_raise (hs : s.Sound) (h k : Handle) :
    (s.raise h).children k = toFront (s.children k) h := by
  unfold Screen.raise
  cases hp : s.parent? h with
  | none => exact (toFront_of_not_mem (hs.not_mem_children hp)).symm
  | some p =>
    refine hs.children_move (g := (toFront · h)) hp rfl
      (fun bs => Branch.relocate_perm h bs.length bs) (fun bs => ?_)
      (fun _ => toFront_of_not_mem) k
    have hlength : (bs.filter fun b => b.handle ≠ h).length ≤ bs.length :=
      List.length_filter_le _ _
    simp only [Branch.relocate, List.take_of_length_le hlength, List.drop_of_length_le hlength]
    simp [toFront, List.filter_map, Function.comp_def]

/-! ## Runs of moves -/

theorem toBack_perm (cs : List Handle) (h : Handle) : (toBack cs h).Perm cs := by
  simpa [toBack] using List.filter_append_perm (fun k : Handle => decide (k = h)) cs

theorem toFront_perm (cs : List Handle) (h : Handle) : (toFront cs h).Perm cs :=
  List.perm_append_comm.trans (toBack_perm cs h)

theorem foldl_perm {f : List Handle → Handle → List Handle} (hf : ∀ cs h, (f cs h).Perm cs)
    (cs hs : List Handle) : (hs.foldl f cs).Perm cs := by
  induction hs generalizing cs with
  | nil => exact List.Perm.refl cs
  | cons h hs ih => exact (ih (f cs h)).trans (hf cs h)

theorem filter_self {cs : List Handle} (hcs : cs.Nodup) (h : Handle) :
    cs.filter (· = h) = [h].filter (· ∈ cs) := by
  by_cases hh : h ∈ cs
  · obtain ⟨before, after, rfl⟩ := List.append_of_mem hh
    obtain ⟨hbefore, hafter⟩ : h ∉ before ∧ h ∉ after := by
      have hmiddle := List.nodup_middle.mp hcs
      simpa using (List.nodup_cons.mp hmiddle).1
    have hne {l : List Handle} (hl : h ∉ l) : l.filter (· = h) = [] :=
      List.filter_eq_nil_iff.mpr fun k hk he => hl (decide_eq_true_eq.mp he ▸ hk)
    rw [List.filter_append, List.filter_cons_of_pos (by simp), hne hbefore, hne hafter,
      List.filter_cons_of_pos (by simp), List.filter_nil, List.nil_append]
  · rw [List.filter_cons_of_neg (by simpa using hh), List.filter_nil, List.filter_eq_nil_iff]
    exact fun k hk he => hh (decide_eq_true_eq.mp he ▸ hk)

theorem filter_self_not_mem {cs hs : List Handle} (hcs : cs.Nodup) (hh : h ∉ hs) :
    (cs.filter (· = h)).filter (· ∉ hs) = [h].filter (· ∈ cs) := by
  rw [filter_self hcs, List.filter_eq_self]
  intro k hk
  simpa [List.mem_singleton.mp (List.mem_of_mem_filter hk)] using hh

theorem filter_not_mem_cons (cs hs : List Handle) (h : Handle) :
    (cs.filter (· ≠ h)).filter (· ∉ hs) = cs.filter (· ∉ h :: hs) := by
  rw [List.filter_filter]
  refine List.filter_congr fun k _ => ?_
  simp [Bool.and_comm]

/-- Widgets that are sunk one by one stand before the others, the last one first. -/
theorem foldl_toBack {cs hs : List Handle} (hcs : cs.Nodup) (hn : hs.Nodup) :
    hs.foldl toBack cs = (hs.filter (· ∈ cs)).reverse ++ cs.filter (· ∉ hs) := by
  induction hs generalizing cs with
  | nil => simp
  | cons h hs ih =>
    obtain ⟨hh, hn⟩ := List.nodup_cons.mp hn
    have hperm := toBack_perm cs h
    have hmoved := filter_self_not_mem hcs hh
    rw [List.foldl_cons, ih (hperm.nodup_iff.mpr hcs) hn]
    calc (hs.filter (· ∈ toBack cs h)).reverse ++ (toBack cs h).filter (· ∉ hs)
        = (hs.filter (· ∈ cs)).reverse ++ (toBack cs h).filter (· ∉ hs) := by
          simp only [hperm.mem_iff]
      _ = (hs.filter (· ∈ cs)).reverse ++ ([h].filter (· ∈ cs) ++ cs.filter (· ∉ h :: hs)) := by
          rw [toBack, List.filter_append, hmoved, filter_not_mem_cons]
      _ = ((h :: hs).filter (· ∈ cs)).reverse ++ cs.filter (· ∉ h :: hs) := by
          rw [← List.append_assoc, List.filter_cons]
          by_cases hin : h ∈ cs <;> simp [hin]

/-- Widgets that are raised one by one stand behind the others, the last one last. -/
theorem foldl_toFront {cs hs : List Handle} (hcs : cs.Nodup) (hn : hs.Nodup) :
    hs.foldl toFront cs = cs.filter (· ∉ hs) ++ hs.filter (· ∈ cs) := by
  induction hs generalizing cs with
  | nil => simp
  | cons h hs ih =>
    obtain ⟨hh, hn⟩ := List.nodup_cons.mp hn
    have hperm := toFront_perm cs h
    have hmoved := filter_self_not_mem hcs hh
    rw [List.foldl_cons, ih (hperm.nodup_iff.mpr hcs) hn]
    calc (toFront cs h).filter (· ∉ hs) ++ hs.filter (· ∈ toFront cs h)
        = (toFront cs h).filter (· ∉ hs) ++ hs.filter (· ∈ cs) := by
          simp only [hperm.mem_iff]
      _ = cs.filter (· ∉ h :: hs) ++ [h].filter (· ∈ cs) ++ hs.filter (· ∈ cs) := by
          rw [toFront, List.filter_append, hmoved, filter_not_mem_cons]
      _ = cs.filter (· ∉ h :: hs) ++ (h :: hs).filter (· ∈ cs) := by
          rw [List.append_assoc, ← List.filter_append, List.singleton_append]

theorem Sound.children_foldl_moveTo (hs : s.Sound) (moves : List (Int × Handle)) (k : Handle) :
    (moves.foldl (fun s e => s.moveTo e.2 0) s).children k =
      (moves.map (·.2)).foldl toBack (s.children k) := by
  induction moves generalizing s with
  | nil => rfl
  | cons e moves ih =>
    rw [List.foldl_cons, ih (hs.moveTo e.2 0), hs.children_moveTo_zero]
    rfl

theorem Sound.children_foldl_raise (hs : s.Sound) (moves : List (Int × Handle)) (k : Handle) :
    (moves.foldl (fun s e => s.raise e.2) s).children k =
      (moves.map (·.2)).foldl toFront (s.children k) := by
  induction moves generalizing s with
  | nil => rfl
  | cons e moves ih =>
    rw [List.foldl_cons, ih (hs.raise e.2), hs.children_raise]
    rfl

theorem Sound.foldl_moveTo (hs : s.Sound) (moves : List (Int × Handle)) :
    (moves.foldl (fun s e => s.moveTo e.2 0) s).Sound := by
  induction moves generalizing s with
  | nil => exact hs
  | cons e moves ih => exact ih (hs.moveTo e.2 0)

end Screen

/-! ## Layers -/

namespace Controls

variable {cs : Controls} {c : Control} {h : Handle} {n : Int}

/-- The z-index of the control that a widget belongs to, if it is not a page. -/
def layer (cs : Controls) (h : Handle) : Int :=
  ((List.find? (fun c => !c.isPage && c.target = h) cs).map (·.zIndex)).getD 0

/-- The widgets of one z-index in the order in which their controls were registered. -/
def level (cs : Controls) (n : Int) : List Handle :=
  (cs.filter fun c => !c.isPage && c.zIndex = n).map Control.target

/-- A test that singles out a target finds its control. -/
theorem find?_target {p : Control → Bool} (hd : (cs.map Control.target).Nodup) (hc : c ∈ cs)
    (hp : p c = true) (ht : ∀ d, p d = true → d.target = c.target) :
    List.find? p cs = some c := by
  obtain ⟨d, hfind⟩ := Option.isSome_iff_exists.mp (List.find?_isSome.mpr ⟨c, hc, hp⟩)
  have hsame : d.target = c.target := ht d (List.find?_some hfind)
  rw [hfind, List.inj_on_of_nodup_map hd (List.mem_of_find?_eq_some hfind) hc hsame]

theorem layer_target (hd : (cs.map Control.target).Nodup) (hc : c ∈ cs) (hp : c.isPage = false) :
    cs.layer c.target = c.zIndex := by
  have hfind : List.find? (fun d => !d.isPage && d.target = c.target) cs = some c :=
    find?_target hd hc (by simp [hp]) fun d hd => by
      simpa using (Bool.and_eq_true_iff.mp hd).2
  rw [layer, hfind, Option.map_some, Option.getD_some]

theorem layer_eq_zero (hh : h ∉ cs.map Control.target) : cs.layer h = 0 := by
  have hfind : List.find? (fun c => !c.isPage && c.target = h) cs = none := by
    simp only [List.find?_eq_none, Bool.and_eq_true, decide_eq_true_eq, not_and]
    exact fun c hc _ he => hh (he ▸ List.mem_map_of_mem hc)
  rw [layer, hfind]
  rfl

theorem exists_of_layer (hh : cs.layer h ≠ 0) :
    ∃ c ∈ cs, c.isPage = false ∧ c.target = h ∧ c.zIndex = cs.layer h := by
  unfold layer at hh ⊢
  cases hfind : List.find? (fun c => !c.isPage && c.target = h) cs with
  | none =>
    rw [hfind] at hh
    exact absurd rfl hh
  | some c =>
    have hc := List.find?_some hfind
    simp only [Bool.and_eq_true, Bool.not_eq_true', decide_eq_true_eq] at hc
    exact ⟨c, List.mem_of_find?_eq_some hfind, hc.1, hc.2, rfl⟩

theorem mem_level (hd : (cs.map Control.target).Nodup) (hn : n ≠ 0) :
    h ∈ cs.level n ↔ cs.layer h = n := by
  simp only [level, List.mem_map, List.mem_filter, Bool.and_eq_true, Bool.not_eq_true',
    decide_eq_true_eq]
  constructor
  · rintro ⟨c, ⟨hc, hp, hz⟩, rfl⟩
    exact (layer_target hd hc hp).trans hz
  · intro hz
    obtain ⟨c, hc, hp, ht, hcz⟩ := exists_of_layer (hz ▸ hn)
    exact ⟨c, ⟨hc, hp, hcz.trans hz⟩, ht⟩

/-- The controls whose z-index is chosen, as moves in the order of a key. -/
def moves (cs : Controls) (chosen : Int → Bool) (key : Int → Int) : List (Int × Handle) :=
  ((cs.filter fun c => !c.isPage && chosen c.zIndex).map fun c => (c.zIndex, c.target)).mergeSort
    fun a b => key a.1 ≤ key b.1

variable {chosen : Int → Bool} {key : Int → Int}

theorem moves_sorted : (cs.moves chosen key).Pairwise fun a b => key a.1 ≤ key b.1 :=
  pairwise_mergeSort_key _

theorem mem_moves {e : Int × Handle} : e ∈ cs.moves chosen key ↔
    ∃ c ∈ cs, (c.isPage = false ∧ chosen c.zIndex = true) ∧ (c.zIndex, c.target) = e := by
  simp [moves, and_assoc]

theorem nodup_moves (hd : (cs.map Control.target).Nodup) :
    ((cs.moves chosen key).map (·.2)).Nodup := by
  have hperm := ((List.mergeSort_perm ((cs.filter fun c => !c.isPage && chosen c.zIndex).map
    fun c => (c.zIndex, c.target)) fun a b => key a.1 ≤ key b.1).map (·.2)).nodup_iff
  rw [moves, hperm, List.map_map]
  exact (List.filter_sublist.map Control.target).nodup hd

theorem layer_move (hd : (cs.map Control.target).Nodup) {e : Int × Handle}
    (he : e ∈ cs.moves chosen key) : cs.layer e.2 = e.1 ∧ chosen e.1 = true := by
  obtain ⟨c, hc, ⟨hp, hz⟩, rfl⟩ := mem_moves.mp he
  exact ⟨layer_target hd hc hp, hz⟩

/-- The widgets that move are those on the chosen layers. -/
theorem mem_moved (hd : (cs.map Control.target).Nodup) (hzero : chosen 0 = false) :
    h ∈ (cs.moves chosen key).map (·.2) ↔ chosen (cs.layer h) = true := by
  constructor
  · intro hin
    obtain ⟨e, he, rfl⟩ := List.mem_map.mp hin
    obtain ⟨hz, hc⟩ := layer_move hd he
    rwa [hz]
  · intro hc
    have hne : cs.layer h ≠ 0 := fun h0 => by simp [h0, hzero] at hc
    obtain ⟨c, hin, hp, ht, hz⟩ := exists_of_layer hne
    exact List.mem_map.mpr
      ⟨(c.zIndex, c.target), mem_moves.mpr ⟨c, hin, ⟨hp, hz ▸ hc⟩, rfl⟩, ht⟩

theorem moved_sorted (hd : (cs.map Control.target).Nodup) :
    ((cs.moves chosen key).map (·.2)).Pairwise fun h k => key (cs.layer h) ≤ key (cs.layer k) := by
  rw [List.pairwise_map]
  refine moves_sorted.imp_of_mem fun ha hb hle => ?_
  rwa [(layer_move hd ha).1, (layer_move hd hb).1]

/-- The widgets of one layer move in the order in which their controls were registered. -/
theorem moved_level (hd : (cs.map Control.target).Nodup) (hkey : Function.Injective key)
    (hn : chosen n = true) :
    ((cs.moves chosen key).map (·.2)).filter (cs.layer · = n) = cs.level n := by
  have hlayer : ∀ e ∈ cs.moves chosen key,
      decide (cs.layer e.2 = n) = decide (key e.1 = key n) := fun e he => by
    simp only [(layer_move hd he).1, hkey.eq_iff]
  have hsort (l : List (Int × Handle)) :
      (l.mergeSort fun a b => key a.1 ≤ key b.1).filter (fun e => key e.1 = key n) =
        l.filter fun e => key e.1 = key n :=
    filter_mergeSort l (key n)
  rw [List.filter_map, Function.comp_def, List.filter_congr hlayer, moves, hsort, List.filter_map,
    List.map_map, List.filter_filter, level]
  congr 1
  refine List.filter_congr fun c _ => ?_
  by_cases hz : c.zIndex = n <;> simp [hz, hn, hkey.eq_iff]

end Controls

namespace Screen

variable {s : Screen} {cs : Controls} {h k : Handle} {n : Int}

theorem sunken_eq (cs : Controls) : sunken cs = cs.moves (· < 0) (- ·) := by
  simp [sunken, Controls.moves]

theorem raised_eq (cs : Controls) : raised cs = cs.moves (0 < ·) id := rfl

theorem mem_sunken (hd : (cs.map Control.target).Nodup) :
    h ∈ (sunken cs).map (·.2) ↔ cs.layer h < 0 := by
  rw [sunken_eq, Controls.mem_moved hd (by decide), decide_eq_true_eq]

theorem mem_raised (hd : (cs.map Control.target).Nodup) :
    h ∈ (raised cs).map (·.2) ↔ 0 < cs.layer h := by
  rw [raised_eq, Controls.mem_moved hd (by decide), decide_eq_true_eq]

theorem filter_sunken (hd : (cs.map Control.target).Nodup) (n : Int) :
    ((sunken cs).map (·.2)).filter (cs.layer · = n) = if n < 0 then cs.level n else [] := by
  split
  · next hn =>
    exact sunken_eq cs ▸ Controls.moved_level hd (fun _ _ => Int.neg_inj.mp) (decide_eq_true hn)
  · next hn =>
    refine List.filter_eq_nil_iff.mpr fun h hh hz => ?_
    have hneg := (mem_sunken hd).mp hh
    rw [decide_eq_true_eq] at hz
    omega

theorem filter_raised (hd : (cs.map Control.target).Nodup) (n : Int) :
    ((raised cs).map (·.2)).filter (cs.layer · = n) = if 0 < n then cs.level n else [] := by
  split
  · next hn =>
    exact raised_eq cs ▸ Controls.moved_level hd Function.injective_id (decide_eq_true hn)
  · next hn =>
    refine List.filter_eq_nil_iff.mpr fun h hh hz => ?_
    have hpos := (mem_raised hd).mp hh
    rw [decide_eq_true_eq] at hz
    omega

theorem Sound.stack (hs : s.Sound) (cs : Controls) : (s.stack cs).Sound :=
  (later_stack s cs hs).1

/-- The siblings after stacking: those that were sunk, the last one first, then those that stayed,
then those that were raised. -/
theorem Sound.children_stack (hs : s.Sound) (hd : (cs.map Control.target).Nodup) (k : Handle) :
    (s.stack cs).children k =
      (((sunken cs).map (·.2)).filter (· ∈ s.children k)).reverse ++
        (s.children k).filter (cs.layer · = 0) ++
        ((raised cs).map (·.2)).filter (· ∈ s.children k) := by
  have hnodup := hs.children_nodup k
  have hsunken : ((sunken cs).map (·.2)).Nodup := sunken_eq cs ▸ Controls.nodup_moves hd
  have hraised : ((raised cs).map (·.2)).Nodup := raised_eq cs ▸ Controls.nodup_moves hd
  have hperm := foldl_perm toBack_perm (s.children k) ((sunken cs).map (·.2))
  have hsunk : ∀ h ∈ (((sunken cs).map (·.2)).filter (· ∈ s.children k)).reverse,
      decide (h ∉ (raised cs).map (·.2)) = true := fun h hh => by
    have hneg := (mem_sunken hd).mp (List.mem_of_mem_filter (List.mem_reverse.mp hh))
    rw [decide_eq_true_eq, mem_raised hd]
    omega
  have hstay : ∀ h ∈ s.children k,
      (decide (h ∉ (raised cs).map (·.2)) && decide (h ∉ (sunken cs).map (·.2))) =
        decide (cs.layer h = 0) := fun h _ => by
    rw [← Bool.decide_and, decide_eq_decide, mem_raised hd, mem_sunken hd]
    omega
  rw [Screen.stack, (hs.foldl_moveTo _).children_foldl_raise, hs.children_foldl_moveTo,
    foldl_toFront (hperm.nodup_iff.mpr hnodup) hraised]
  simp only [hperm.mem_iff]
  rw [foldl_toBack hnodup hsunken, List.filter_append, List.filter_eq_self.mpr hsunk,
    List.filter_filter, List.filter_congr hstay]

/-- The siblings of one layer after stacking: below zero the last registered one first, on zero as
before, and above zero as registered. -/
theorem Sound.filter_children_stack (hs : s.Sound) (hd : (cs.map Control.target).Nodup)
    (k : Handle) (n : Int) :
    ((s.stack cs).children k).filter (cs.layer · = n) =
      if n < 0 then ((cs.level n).filter (· ∈ s.children k)).reverse
      else if n = 0 then (s.children k).filter (cs.layer · = 0)
      else (cs.level n).filter (· ∈ s.children k) := by
  have hstay : ((s.children k).filter (cs.layer · = 0)).filter (cs.layer · = n) =
      if n = 0 then (s.children k).filter (cs.layer · = 0) else [] := by
    split
    · next hn =>
      rw [hn, List.filter_filter, List.filter_congr fun _ _ => Bool.and_self _]
    · next hn =>
      refine List.filter_eq_nil_iff.mpr fun h hh hz => hn ?_
      exact (decide_eq_true_eq.mp hz).symm.trans (by simpa using (List.mem_filter.mp hh).2)
  have hswap (l : List Handle) : (l.filter (· ∈ s.children k)).filter (cs.layer · = n) =
      (l.filter (cs.layer · = n)).filter (· ∈ s.children k) := List.filter_comm _ _ _
  rw [hs.children_stack hd, List.filter_append, List.filter_append, List.filter_reverse, hstay,
    hswap, hswap, filter_sunken hd, filter_raised hd]
  rcases lt_trichotomy n 0 with hn | hn | hn
  · simp [hn, hn.ne, hn.le]
  · simp [hn]
  · simp [hn, hn.ne', hn.not_gt]

theorem Sound.children_stack_sorted (hs : s.Sound) (hd : (cs.map Control.target).Nodup)
    (k : Handle) : ((s.stack cs).children k).Pairwise fun a b => cs.layer a ≤ cs.layer b := by
  have hsunken : ((sunken cs).map (·.2)).Pairwise fun a b => cs.layer b ≤ cs.layer a := by
    rw [sunken_eq]
    exact (Controls.moved_sorted hd).imp fun hle => Int.neg_le_neg_iff.mp hle
  have hraised : ((raised cs).map (·.2)).Pairwise fun a b => cs.layer a ≤ cs.layer b := by
    rw [raised_eq]
    have hsorted : ((cs.moves (0 < ·) id).map (·.2)).Pairwise fun a b =>
        id (cs.layer a) ≤ id (cs.layer b) := Controls.moved_sorted hd
    exact hsorted
  have hneg {h : Handle} (hh : h ∈ (((sunken cs).map (·.2)).filter (· ∈ s.children k)).reverse) :
      cs.layer h < 0 :=
    (mem_sunken hd).mp (List.mem_of_mem_filter (List.mem_reverse.mp hh))
  have hzero {h : Handle} (hh : h ∈ (s.children k).filter (cs.layer · = 0)) : cs.layer h = 0 := by
    simpa using (List.mem_filter.mp hh).2
  have hpos {h : Handle} (hh : h ∈ ((raised cs).map (·.2)).filter (· ∈ s.children k)) :
      0 < cs.layer h :=
    (mem_raised hd).mp (List.mem_of_mem_filter hh)
  rw [hs.children_stack hd, List.append_assoc, List.pairwise_append, List.pairwise_append]
  refine ⟨List.pairwise_reverse.mpr (hsunken.filter _), ⟨?_, hraised.filter _, ?_⟩, ?_⟩
  · exact List.pairwise_of_forall_mem_list fun a ha b hb => by rw [hzero ha, hzero hb]
  · intro a ha b hb
    exact (hzero ha).trans_le (hpos hb).le
  · intro a ha b hb
    rcases List.mem_append.mp hb with hb | hb
    · exact (hneg ha).le.trans_eq (hzero hb).symm
    · exact ((hneg ha).trans (hpos hb)).le

/-- Stacking changes nothing but the tree. -/
theorem stack_eq (s : Screen) (cs : Controls) :
    s.stack cs = { s with shape := (s.stack cs).shape } := by
  have hrun {f : Screen → Int × Handle → Screen}
      (hf : ∀ s e, ∃ shape, f s e = { s with shape := shape }) (es : List (Int × Handle))
      (s : Screen) : ∃ shape, es.foldl f s = { s with shape := shape } := by
    induction es generalizing s with
    | nil => exact ⟨s.shape, rfl⟩
    | cons e es ih =>
      obtain ⟨first, hfirst⟩ := hf s e
      obtain ⟨rest, hrest⟩ := ih (f s e)
      exact ⟨rest, by rw [List.foldl_cons, hrest, hfirst]⟩
  obtain ⟨low, hlow⟩ := hrun (f := fun s e => s.moveTo e.2 0)
    (fun s e => by unfold moveTo; split <;> exact ⟨_, rfl⟩) (sunken cs) s
  obtain ⟨high, hhigh⟩ := hrun (f := fun s e => s.raise e.2)
    (fun s e => by unfold raise; split <;> exact ⟨_, rfl⟩) (raised cs)
    ((sunken cs).foldl (fun s e => s.moveTo e.2 0) s)
  have hstack : s.stack cs = { s with shape := high } := by
    rw [stack, hhigh, hlow]
  rw [hstack]

theorem Sound.children_stack_perm (hs : s.Sound) (cs : Controls) (k : Handle) :
    ((s.stack cs).children k).Perm (s.children k) := by
  rw [Screen.stack, (hs.foldl_moveTo _).children_foldl_raise, hs.children_foldl_moveTo]
  exact (foldl_perm toFront_perm _ _).trans (foldl_perm toBack_perm _ _)

/-- What is stacked stays as it is when it is stacked again. -/
theorem Sound.stack_stack (hs : s.Sound) (hd : (cs.map Control.target).Nodup) :
    (s.stack cs).stack cs = s.stack cs := by
  have ht := hs.stack cs
  have hchildren (k : Handle) : ((s.stack cs).stack cs).children k = (s.stack cs).children k := by
    have hzero := hs.filter_children_stack hd k 0
    rw [if_neg (by decide), if_pos rfl] at hzero
    rw [ht.children_stack hd, hzero]
    simp only [(hs.children_stack_perm cs k).mem_iff]
    exact (hs.children_stack hd k).symm
  rw [stack_eq (s.stack cs) cs, ht.shape_eq (ht.stack cs) hchildren]

/-- Stacking controls on different widgets changes the order of siblings only. It sorts them by
layer; those on layer zero keep their order, and those above it come in the order in which their
controls were registered, so stacking again changes nothing. -/
theorem stack_spec (s : Screen) (cs : Controls) (hs : s.Sound)
    (hd : (cs.map Control.target).Nodup) :
    let t := s.stack cs
    (t = { s with shape := t.shape } ∧ ∀ h, t.parent? h = s.parent? h) ∧
    (∀ h, (t.children h).Perm (s.children h) ∧
      (t.children h).Pairwise (fun a b => cs.layer a ≤ cs.layer b) ∧
      (t.children h).filter (cs.layer · = 0) = (s.children h).filter (cs.layer · = 0) ∧
      ∀ n, 0 < n →
        (t.children h).filter (cs.layer · = n) = (cs.level n).filter (· ∈ s.children h)) ∧
    t.stack cs = t := by
  intro t
  have hperm (h : Handle) : (t.children h).Perm (s.children h) := hs.children_stack_perm cs h
  refine ⟨⟨s.stack_eq cs, fun h => ?_⟩, fun h => ⟨hperm h, hs.children_stack_sorted hd h, ?_, ?_⟩,
    hs.stack_stack hd⟩
  · exact hs.parent?_eq (hs.stack cs) fun p => (hperm p).mem_iff
  · rw [hs.filter_children_stack hd, if_neg (by decide), if_pos rfl]
  · intro n hn
    rw [hs.filter_children_stack hd, if_neg hn.not_gt, if_neg hn.ne']

/-- A page with three labels beside a fourth one. Two labels in the page have one z-index, and the
one that stands last was registered first. -/
theorem stack_spec_of_page :
    let s := (Screen.new ⟨40, 20⟩).arranged [.create .page Handle.screen,
      .create .label Handle.screen, .create .label ⟨1, 1⟩, .create .label ⟨1, 1⟩,
      .create .label ⟨1, 1⟩]
    let control (slot : Nat) (z : Int) : Control :=
      { id := "c", kind := .label, obj := ⟨slot, 1⟩, zIndex := z }
    let cs : Controls := [control 5 2, control 1 5, control 3 2, control 4 (-1)]
    (s.Sound ∧ (cs.map Control.target).Nodup) ∧
    s.children ⟨1, 1⟩ = [⟨3, 1⟩, ⟨4, 1⟩, ⟨5, 1⟩] ∧
    ((s.stack cs).children ⟨1, 1⟩).Pairwise (fun a b => cs.layer a ≤ cs.layer b) ∧
    ((s.stack cs).children ⟨1, 1⟩).filter (cs.layer · = 2) = [⟨5, 1⟩, ⟨3, 1⟩] ∧
    (s.stack cs).stack cs = s.stack cs := by
  intro s control cs
  have hs : s.Sound := (sound_new ⟨40, 20⟩).arranged _
  have hd : (cs.map Control.target).Nodup := by decide
  obtain ⟨-, hchildren, hagain⟩ := stack_spec s cs hs hd
  obtain ⟨-, hsorted, -, hlevel⟩ := hchildren ⟨1, 1⟩
  exact ⟨⟨hs, hd⟩, by decide +kernel, hsorted, (hlevel 2 (by decide)).trans (by decide +kernel),
    hagain⟩

end Screen
end ScreenMarkup
