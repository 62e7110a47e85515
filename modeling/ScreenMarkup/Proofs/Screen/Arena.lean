import ScreenMarkup.Proofs.Screen.Planting
import ScreenMarkup.Proofs.Screen.Stacking
import ScreenMarkup.Proofs.Screen.Walk

/-!
# Links stay a tree

A new screen is a tree of one widget, and every operation on the links does
what the same operation does on a tree. So the links of a screen are those of a
tree for ever, a deletion comes to an end, and a walk from a widget lists what
is below it as the recursion over the tree does.
-/

set_option autoImplicit false

namespace ScreenMarkup

namespace Arena

variable {a : Arena} {s : Screen} {b : Branch} {h k p : Handle} {α : Type}
  {table : Handle → Option α} {entry : Option α}

theorem assign_self : assign table h entry h = entry := if_pos rfl

theorem assign_of_ne (hk : k ≠ h) : assign table h entry k = table k := if_neg hk

/-- An entry that is there already changes nothing. -/
theorem assign_eq (he : table h = entry) : assign table h entry = table := by
  funext k
  rw [assign]
  split
  · next hk => rw [hk, he]
  · rfl

theorem eq_of_links {a b : Arena} (nodes : a.nodes = b.nodes)
    (children : ∀ k, a.children k = b.children k) (parent : ∀ k, a.parent k = b.parent k) :
    a = b := by
  obtain ⟨_, _, _, _, _, _⟩ := a
  obtain ⟨_, _, _, _, _, _⟩ := b
  obtain rfl := funext children
  obtain rfl := funext parent
  simp_all [Arena.nodes]

/-! ## Widgets -/

theorem children_ofScreen (s : Screen) (h : Handle) :
    (ofScreen s).children h = if s.isLive h then some (s.children h) else none := rfl

theorem children_of_live (hl : s.isLive h = true) :
    (ofScreen s).children h = some (s.children h) := if_pos hl

theorem childList_ofScreen (hs : s.Sound) (h : Handle) :
    (ofScreen s).childList h = s.children h := by
  rw [childList, children_ofScreen]
  split
  · rfl
  · next hl => rw [hs.children_dead (Bool.eq_false_iff.mpr hl)]; rfl

/-- Screens with the same tree differ in their widgets only. -/
theorem ofScreen_of_shape {t : Screen} (hshape : t.shape = s.shape)
    (hlive : ∀ k, t.isLive k = s.isLive k) : ofScreen t = (ofScreen s).withNodes t := by
  refine eq_of_links rfl (fun k => ?_) (fun k => Screen.parent?_congr hshape k)
  show (ofScreen t).children k = (ofScreen s).children k
  rw [children_ofScreen, children_ofScreen, hlive, Screen.children_congr hshape]

theorem modify_ofScreen (s : Screen) (h : Handle) (f : Widget → Widget) :
    (ofScreen s).modify h f = ofScreen (s.modify h f) := by
  have hnodes : (ofScreen s).modify h f = (ofScreen s).withNodes (s.modify h f) := by
    have hwidget : (ofScreen s).nodes.widget? h = s.widget? h := rfl
    unfold modify Screen.modify
    rw [hwidget]
    cases s.widget? h <;> rfl
  have ht : Screen.Touches (· = h) (fun _ _ => True) s (s.modify h f) :=
    Screen.touches_modify (fun _ => trivial) fun _ => trivial
  rw [hnodes, ofScreen_of_shape (Screen.modify_shape f) ht.isLive]

/-! ## New widgets -/

theorem allocate_nodes (s : Screen) (w : Widget) :
    (ofScreen s).nodes.allocate w =
      ((s.allocate w).1, { (s.allocate w).2 with shape := Branch.leaf Handle.screen }) := by
  obtain ⟨slots, free, shape, pointer, clock⟩ := s
  cases free <;> rfl

theorem create_ofScreen (hs : s.Sound) (kind : WidgetKind) (parent : Handle) :
    (ofScreen s).create kind parent =
      ((s.create kind parent).1, ofScreen (s.create kind parent).2) := by
  have ht := hs.create kind parent
  have hlive (k : Handle) (hk : k ≠ (s.create kind parent).1) :
      (s.create kind parent).2.isLive k = s.isLive k := by
    rw [Screen.isLive, hs.widget?_create, if_neg hk]
    rfl
  have hholder := hs.holder_live parent
  have hne : s.holder parent ≠ (s.create kind parent).1 := hs.create_ne kind parent hholder
  have hcreate : (ofScreen s).create kind parent = ((s.create kind parent).1,
      { (ofScreen s).withNodes (s.create kind parent).2 with
        children := assign (assign (ofScreen s).children (s.create kind parent).1 (some []))
          (s.holder parent)
          ((assign (ofScreen s).children (s.create kind parent).1 (some []) (s.holder parent)).map
            (· ++ [(s.create kind parent).1]))
        parent := assign s.parent? (s.create kind parent).1 (some (s.holder parent)) }) := by
    unfold create
    rw [allocate_nodes]
    rfl
  rw [assign_of_ne hne, children_of_live hholder] at hcreate
  rw [hcreate]
  refine Prod.ext rfl (eq_of_links rfl (fun k => ?lists) (fun k => ?up))
  case lists =>
    show assign (assign (ofScreen s).children (s.create kind parent).1 (some []))
      (s.holder parent) (some (s.children (s.holder parent) ++ [(s.create kind parent).1])) k = _
    rw [children_ofScreen]
    by_cases hk : k = s.holder parent
    · rw [hk, assign_self, hlive _ hne, if_pos hholder, hs.children_create_self]
    · rw [assign_of_ne hk, hs.children_create kind parent hk]
      by_cases hnew : k = (s.create kind parent).1
      · have hbare : s.children (s.create kind parent).1 = [] :=
          hs.children_dead (by rw [Screen.isLive, hs.create_fresh]; rfl)
        rw [hnew, assign_self, hs.live_create, if_pos rfl, hbare]
      · rw [assign_of_ne hnew, hlive k hnew, children_ofScreen]
  case up =>
    show assign s.parent? (s.create kind parent).1 (some (s.holder parent)) k = _
    by_cases hnew : k = (s.create kind parent).1
    · rw [hnew, assign_self]
      refine (ht.mem_children_iff.mp ?_).symm
      rw [hs.mem_children_create]
      exact .inr ⟨rfl, rfl⟩
    · rw [assign_of_ne hnew]
      refine (hs.parent?_eq ht fun q => ?_).symm
      rw [hs.mem_children_create, or_iff_left fun hin => hnew hin.1]

/-! ## Moves -/

theorem arrange_of_parent {f : List Handle → List Handle} (hp : a.parent h = some p) :
    a.arrange h f = { a with children := assign a.children p ((a.children p).map f) } := by
  rw [arrange, hp]

theorem arrange_of_top {f : List Handle → List Handle} (hp : a.parent h = none) :
    a.arrange h f = a := by
  rw [arrange, hp]

/-- A new order of siblings, which is seen in one list of children only. -/
theorem arrange_ofScreen (hs : s.Sound) {t : Screen} (hr : Screen.Reorders s t)
    (hnodes : (ofScreen t).nodes = (ofScreen s).nodes) {f : List Handle → List Handle}
    (hp : s.parent? h = some p)
    (hc : ∀ k, t.children k = if k = p then f (s.children k) else s.children k) :
    (ofScreen s).arrange h f = ofScreen t := by
  have hlive (k : Handle) : t.isLive k = s.isLive k := Screen.isLive_congr (hr.widget? k)
  rw [arrange_of_parent hp, children_of_live (hs.parent?_live hp), Option.map_some]
  refine eq_of_links hnodes.symm (fun k => ?lists) (fun k => ?up)
  case lists =>
    show assign (ofScreen s).children p (some (f (s.children p))) k = _
    rw [children_ofScreen, hlive, hc]
    by_cases hk : k = p
    · rw [hk, assign_self, if_pos (hs.parent?_live hp), if_pos rfl]
    · rw [assign_of_ne hk, if_neg hk, children_ofScreen]
  case up =>
    refine (hs.parent?_eq (hs.reorder hr) fun q => ?_).symm
    exact hs.mem_children_reorder hr q

theorem moveTo_ofScreen (hs : s.Sound) (h : Handle) (i : Nat) :
    (ofScreen s).moveTo h i = ofScreen (s.moveTo h i) := by
  unfold moveTo Screen.moveTo
  cases hp : s.parent? h with
  | none => exact arrange_of_top hp
  | some p =>
    refine arrange_ofScreen hs (t := { s with shape := s.shape.modify p (Branch.relocate h i) })
      ⟨rfl, rfl, p, _, rfl, Branch.relocate_perm h i⟩ rfl hp fun k => ?_
    let relocated (cs : List Handle) : List Handle :=
      (cs.filter (· ≠ h)).take i ++ cs.filter (· = h) ++ (cs.filter (· ≠ h)).drop i
    rw [hs.children_rearrange (g := relocated) rfl (Branch.relocate_perm h i)
      fun bs => by simp [relocated, Branch.relocate, List.filter_map, Function.comp_def]]
    split
    · next hk =>
      have hmem : h ∈ s.children k := hk ▸ hs.mem_children_iff.mpr hp
      have hself : (s.children k).filter (· = h) = [h] := by
        rw [Screen.filter_self (hs.children_nodup k) h, List.filter_cons_of_pos (by simpa using hmem),
          List.filter_nil]
      simp [relocated, hself]
    · rfl

theorem raise_ofScreen (hs : s.Sound) (h : Handle) :
    (ofScreen s).raise h = ofScreen (s.raise h) := by
  have hraise := hs.children_raise h
  unfold raise Screen.raise at *
  cases hp : s.parent? h with
  | none => exact arrange_of_top hp
  | some p =>
    rw [hp] at hraise
    refine arrange_ofScreen hs
      (t := { s with shape := s.shape.modify p fun bs => Branch.relocate h bs.length bs })
      ⟨rfl, rfl, p, _, rfl, fun bs => Branch.relocate_perm h bs.length bs⟩ rfl hp fun k => ?_
    rw [hraise]
    split
    · next hk =>
      have hmem : h ∈ s.children k := hk ▸ hs.mem_children_iff.mpr hp
      rw [Screen.toFront, Screen.filter_self (hs.children_nodup k) h,
        List.filter_cons_of_pos (by simpa using hmem), List.filter_nil]
    · next hk =>
      refine Screen.toFront_of_not_mem fun hin => hk ?_
      exact (Option.some.inj (hp.symm.trans (hs.mem_children_iff.mp hin))).symm

/-! ## Deletions -/

theorem nodes_drop (hl : a.isLive h = true) : (a.drop h).nodes = a.nodes.release h := by
  unfold drop
  rw [if_pos hl]
  rfl

theorem nodes_dropAll {ks : List Handle} (hn : ks.Nodup) (hl : ∀ k ∈ ks, a.isLive k = true) :
    (ks.foldl drop a).nodes = ks.foldl Screen.release a.nodes := by
  induction ks generalizing a with
  | nil => rfl
  | cons k ks ih =>
    obtain ⟨hk, hn⟩ := List.nodup_cons.mp hn
    have hlk : a.isLive k = true := hl k List.mem_cons_self
    rw [List.foldl_cons, List.foldl_cons, ← nodes_drop hlk]
    refine ih hn fun j hj => ?_
    have hne : j ≠ k := fun he => hk (he ▸ hj)
    rw [isLive, nodes_drop hlk, Screen.isLive, Screen.widget?_release hlk, if_neg hne]
    exact hl j (List.mem_cons_of_mem k hj)

theorem children_dropAll (ks : List Handle) (j : Handle) :
    (ks.foldl drop a).children j = if j ∈ ks then none else a.children j := by
  induction ks generalizing a with
  | nil => simp
  | cons k ks ih =>
    rw [List.foldl_cons, ih]
    show (if j ∈ ks then none else if j = k then none else a.children j) = _
    by_cases hk : j = k <;> simp [hk]

theorem parent_dropAll (ks : List Handle) (j : Handle) :
    (ks.foldl drop a).parent j = if j ∈ ks then none else a.parent j := by
  induction ks generalizing a with
  | nil => simp
  | cons k ks ih =>
    rw [List.foldl_cons, ih]
    show (if j ∈ ks then none else if j = k then none else a.parent j) = _
    by_cases hk : j = k <;> simp [hk]

/-- A queue along the links of some branches removes what these branches are made of, and ends. -/
theorem drain?_eq (bs : List Branch) (hf : Branch.FitsAll a.childList bs)
    (hn : (Branch.handlesAll bs).Nodup) :
    a.drain? (bs.map Branch.handle) = some ((Branch.queued bs).foldl drop a) := by
  fun_induction Branch.queued bs generalizing a with
  | case1 =>
    rw [List.map_nil, drain?]
    rfl
  | case2 k bs queue ih =>
    obtain ⟨⟨hk, hbs⟩, hqueue⟩ := hf
    rw [Branch.handlesAll, Branch.handles, List.cons_append] at hn
    obtain ⟨hout, hn⟩ := List.nodup_cons.mp hn
    have hperm : (Branch.handlesAll (queue ++ bs)).Perm
        (Branch.handlesAll bs ++ Branch.handlesAll queue) := by
      rw [Branch.handlesAll_append]
      exact List.perm_append_comm
    have hrest : Branch.FitsAll (a.drop k).childList (queue ++ bs) := by
      refine Branch.FitsAll.congr _ ((Branch.fitsAll_append queue bs).mpr ⟨hqueue, hbs⟩) ?_
      intro j hj
      have hne : j ≠ k := fun he => hout (he ▸ hperm.subset hj)
      show (assign a.children k none j).getD [] = _
      rw [assign_of_ne hne]
      rfl
    rw [List.map_cons, drain?]
    show (a.drop k).drain? (queue.map Branch.handle ++ a.childList k) = _
    rw [hk, ← List.map_append, ih hrest (hperm.nodup_iff.mpr hn)]
    rfl

theorem releaseAll_shape (ks : List Handle) (s : Screen) (b : Branch) :
    ks.foldl Screen.release { s with shape := b } =
      { ks.foldl Screen.release s with shape := b } := by
  induction ks generalizing s with
  | nil => rfl
  | cons k ks ih => exact ih (s.release k)

theorem unlink_ofScreen (hs : s.Sound) (hp : s.parent? h = some p) :
    (ofScreen s).unlink h = { ofScreen s with
      children := assign (ofScreen s).children p (some ((s.children p).filter (· ≠ h)))
      parent := assign s.parent? h none } := by
  rw [unlink, arrange_of_parent hp, children_of_live (hs.parent?_live hp)]
  rfl

/-- Without its link from above a branch is still a tree along the links. -/
theorem fits_unlink (hs : s.Sound) (hp : s.parent? h = some p) (hb : s.branch? h = some b) :
    b.Fits ((ofScreen s).unlink h).childList := by
  refine Branch.Fits.congr b (hs.fits hb) fun k hk => ?_
  have hkp : k ≠ p := by
    rintro rfl
    rw [Screen.branch?_handles hb] at hk
    exact hs.parent_not_mem_family hp hk
  rw [← childList_ofScreen hs k, unlink_ofScreen hs hp]
  show (assign (ofScreen s).children p _ k).getD [] = _
  rw [assign_of_ne hkp, childList]

/-- Outside of what is deleted only the list of the siblings changes. -/
theorem children_unlink (hs : s.Sound) (hp : s.parent? h = some p) (hk : k ∉ s.family h) :
    ((ofScreen s).unlink h).children k =
      if s.isLive k then some ((s.children k).filter (· ∉ s.family h)) else none := by
  have hfilter : (s.children k).filter (· ∉ s.family h) = (s.children k).filter (· ≠ h) :=
    List.filter_congr fun c hc => by simp [hs.child_mem_family hc hk]
  rw [unlink_ofScreen hs hp, hfilter]
  show assign (ofScreen s).children p _ k = _
  by_cases hkp : k = p
  · rw [hkp, assign_self, if_pos (hs.parent?_live hp)]
  · have hsame : (s.children k).filter (· ≠ h) = s.children k := by
      refine List.filter_eq_self.mpr fun c hc => decide_eq_true ?_
      rintro rfl
      exact hkp (Option.some.inj ((hs.mem_children_iff.mp hc).symm.trans hp))
    rw [assign_of_ne hkp, hsame, children_ofScreen]

theorem delete?_ofScreen (hs : s.Sound) (h : Handle) :
    (ofScreen s).delete? h = some (ofScreen (s.delete h)) := by
  unfold delete?
  split
  · next hh => rw [hs.delete_nothing hh.symm]
  · next hh =>
    obtain ⟨hl, hne⟩ := not_or.mp hh
    have hl : s.isLive h = true := Bool.eq_true_of_not_eq_false hl
    obtain ⟨b, hb, hdelete, hperm⟩ := hs.delete_by_queue hl hne
    obtain ⟨p, hp⟩ := hs.parent?_isSome hl hne
    have hremoves := hs.removes_delete hl hne
    have hhandles : b.handles = s.family h := Screen.branch?_handles hb
    have hn : b.handles.Nodup := (Branch.find?_eq_some s.shape hb).2.nodup hs.nodup
    have hqueue : (Branch.queued [b]).Nodup := hperm.nodup_iff.mpr (hhandles ▸ hn)
    have hlive : ∀ k ∈ Branch.queued [b], ((ofScreen s).unlink h).isLive k = true := by
      intro k hk
      rw [unlink_ofScreen hs hp]
      exact hremoves.live k (hperm.mem_iff.mp hk)
    have hdrain := drain?_eq [b] ⟨fits_unlink hs hp hb, trivial⟩
      (by simpa [Branch.handlesAll] using hn)
    rw [List.map_singleton, (Branch.find?_eq_some s.shape hb).1] at hdrain
    rw [hdrain]
    refine congrArg some (eq_of_links ?nodes (fun k => ?lists) fun k => ?up)
    case nodes =>
      rw [nodes_dropAll hqueue hlive, hdelete, unlink_ofScreen hs hp]
      exact releaseAll_shape _ s _
    case lists =>
      rw [children_dropAll, children_ofScreen]
      by_cases hk : k ∈ s.family h
      · have hgone : ¬ (s.delete h).isLive k = true := fun hl => (hremoves.isLive_iff.mp hl).2 hk
        rw [if_pos (hperm.mem_iff.mpr hk), if_neg hgone]
      · have hstays : (s.delete h).isLive k = true ↔ s.isLive k = true := by
          rw [hremoves.isLive_iff, and_iff_left hk]
        rw [if_neg fun hin => hk (hperm.mem_iff.mp hin), children_unlink hs hp hk,
          hremoves.children, if_neg hk]
        simp only [hstays]
    case up =>
      rw [parent_dropAll, unlink_ofScreen hs hp]
      show _ = (s.delete h).parent? k
      rw [hremoves.parent?]
      by_cases hk : k ∈ s.family h
      · rw [if_pos hk, if_pos (hperm.mem_iff.mpr hk)]
      · have hne : k ≠ h := fun he => hk (he ▸ List.mem_cons_self)
        rw [if_neg hk, if_neg fun hin => hk (hperm.mem_iff.mp hin)]
        exact assign_of_ne hne

theorem clean?_ofScreen (hs : s.Sound) (h : Handle) :
    (ofScreen s).clean? h = some (ofScreen (s.clean h)) := by
  have hall (ks : List Handle) (t : Screen) (ht : t.Sound) :
      ks.foldlM delete? (ofScreen t) = some (ofScreen (ks.foldl Screen.delete t)) := by
    induction ks generalizing t with
    | nil => rfl
    | cons k ks ih =>
      rw [List.foldlM_cons, delete?_ofScreen ht]
      exact ih (t.delete k) (ht.delete k)
  rw [clean?, childList_ofScreen hs]
  exact hall (s.children h) s hs

end Arena

/-! ## Runs of all operations -/

def TreeOperation.performLinked? (o : TreeOperation) (a : Arena) : Option Arena :=
  match o with
  | create kind parent => some (a.create kind parent).2
  | delete widget => a.delete? widget
  | clean widget => a.clean? widget
  | moveTo widget position => some (a.moveTo widget position)
  | raise widget => some (a.raise widget)

/-- Beside the operations on the tree, only a new size or alignment reads a link. -/
def ScreenOperation.performLinked? (o : ScreenOperation) (a : Arena) : Option Arena :=
  match o with
  | arrange o => o.performLinked? a
  | setSize widget width height =>
    some (a.modify widget (·.setSize (a.parentSize? widget) width height))
  | align widget place shift =>
    some (a.modify widget (·.align (a.parentSize? widget) place shift))
  | o => some (a.withNodes (o.perform a.nodes))

namespace Arena

variable {s : Screen} {h k : Handle}

/-- The links after some operations, in order. -/
def after? (a : Arena) (os : List ScreenOperation) : Option Arena :=
  os.foldlM (fun a o => o.performLinked? a) a

theorem performLinked?_ofScreen (hs : s.Sound) (o : ScreenOperation) :
    o.performLinked? (ofScreen s) = some (ofScreen (o.perform s)) := by
  cases o with
  | arrange o =>
    cases o with
    | create kind parent => exact congrArg some (congrArg Prod.snd (create_ofScreen hs kind parent))
    | delete widget => exact delete?_ofScreen hs widget
    | clean widget => exact clean?_ofScreen hs widget
    | moveTo widget position => exact congrArg some (moveTo_ofScreen hs widget position)
    | raise widget => exact congrArg some (raise_ofScreen hs widget)
  | setPointer p => rfl
  | advance ms => rfl
  | _ => exact congrArg some (modify_ofScreen s _ _)

theorem new_eq (size : Size) : new size = ofScreen (Screen.new size) := by
  have hs := Screen.sound_new size
  have hmem (k : Handle) : k ∈ (Screen.new size).shape.handles ↔ k = Handle.screen :=
    List.mem_singleton
  refine eq_of_links rfl (fun k => ?lists) fun k => ?up
  case lists =>
    show assign (fun _ => none) Handle.screen (some []) k = _
    rw [children_ofScreen]
    by_cases hk : k = Handle.screen
    · rw [hk, assign_self, if_pos hs.screen_live]
      rfl
    · rw [assign_of_ne hk, if_neg (mt (hs.live k).mpr (mt (hmem k).mp hk))]
  case up =>
    by_cases hk : k = Handle.screen
    · rw [hk]
      exact hs.screen_parent?.symm
    · show none = (Screen.new size).parent? k
      rw [Screen.parent?, Screen.ancestors, Branch.above?_eq_none _ (mt (hmem k).mp hk)]
      rfl

/-- Every run ends, with the links of the tree that the same run on trees ends with. -/
theorem after?_new (size : Size) (os : List ScreenOperation) :
    (new size).after? os = some (ofScreen ((Screen.new size).after os)) := by
  have hall (s : Screen) (hs : s.Sound) :
      (ofScreen s).after? os = some (ofScreen (s.after os)) := by
    induction os generalizing s with
    | nil => rfl
    | cons o os ih =>
      rw [after?, List.foldlM_cons, performLinked?_ofScreen hs]
      exact ih _ (Screen.operate_sound hs o)
  rw [new_eq]
  exact hall _ (Screen.sound_new size)

/-- The handle that some links from child to parent lead to. -/
def climb (a : Arena) : Nat → Handle → Option Handle
  | 0, h => some h
  | n + 1, h => (a.parent h).bind (a.climb n)

theorem climb_ofScreen (s : Screen) (n : Nat) (h : Handle) :
    (ofScreen s).climb n h = s.climb n h := by
  induction n generalizing h with
  | zero => rfl
  | succ n ih =>
    show (s.parent? h).bind _ = _
    exact congrArg (s.parent? h).bind (funext ih)

theorem descendants?_ofScreen (hs : s.Sound) (h : Handle) (hl : s.isLive h = true) :
    (ofScreen s).descendants? h = some (s.descendants h) := by
  have hlist : (ofScreen s).childList = s.children := funext (childList_ofScreen hs)
  rw [descendants?, walk?_eq_some, hlist, List.reverse_reverse]
  exact ⟨s.descendants h, hs.lists_descendants hl, rfl⟩

/-- After every run, a walk from a live widget ends. It lists the children in order, each followed
by the listing of its own children, and so each widget from which the links lead up to the one it
starts from, once; and the search for a kind finds the first widget of this kind in the listing
of the screen. -/
theorem walk_lists (size : Size) (os : List ScreenOperation) :
    ∃ a, (new size).after? os = some a ∧
      (∀ h, a.isLive h = true → ∃ below, a.descendants? h = some below ∧
        Lists a.childList (a.childList h) below ∧ below.Nodup ∧ h ∉ below ∧
        ∀ k, k ∈ below ↔ ∃ n, a.climb (n + 1) k = some h) ∧
      ∀ kind, ∃ below, Lists a.childList (a.childList Handle.screen) below ∧
        a.findKind? kind = some (below.find? fun h => a.kind? h = some kind) := by
  have hs : ((Screen.new size).after os).Sound := Screen.after_sound (Screen.sound_new size) os
  generalize hafter : (Screen.new size).after os = s at hs
  have hlist : (ofScreen s).childList = s.children := funext (childList_ofScreen hs)
  refine ⟨ofScreen s, hafter ▸ after?_new size os, fun h hl => ?below, fun kind => ?kind⟩
  case below =>
    obtain ⟨b, hb⟩ := hs.exists_branch hl
    have hn : b.handles.Nodup := (Branch.find?_eq_some s.shape hb).2.nodup hs.nodup
    rw [Screen.branch?_handles hb] at hn
    obtain ⟨hout, hn⟩ := List.nodup_cons.mp hn
    refine ⟨s.descendants h, descendants?_ofScreen hs h hl, ?_, hn, hout, fun k => ?_⟩
    · rw [hlist]
      exact hs.lists_descendants hl
    · simp only [climb_ofScreen]
      exact hs.mem_descendants_iff
  case kind =>
    refine ⟨s.descendants Handle.screen, ?_, ?_⟩
    · rw [hlist]
      exact hs.lists_descendants hs.screen_live
    · rw [findKind?, descendants?_ofScreen hs Handle.screen hs.screen_live]
      rfl

/-- A page with a button and the label on it, beside another page. -/
theorem walk_lists_of_page :
    let os : List ScreenOperation := [.arrange (.create .page Handle.screen),
      .arrange (.create .button ⟨1, 1⟩), .arrange (.create .page Handle.screen),
      .arrange (.create .label ⟨2, 1⟩)]
    ∃ a, (new ⟨480, 320⟩).after? os = some a ∧ a.isLive ⟨1, 1⟩ = true ∧
      a.descendants? ⟨1, 1⟩ = some [⟨2, 1⟩, ⟨4, 1⟩] ∧
      Lists a.childList (a.childList ⟨1, 1⟩) [⟨2, 1⟩, ⟨4, 1⟩] := by
  intro os
  obtain ⟨a, ha, hwalk, -⟩ := walk_lists ⟨480, 320⟩ os
  have he := Option.some.inj ((after?_new ⟨480, 320⟩ os).symm.trans ha)
  have hl : a.isLive ⟨1, 1⟩ = true := by
    rw [← he]
    decide +kernel
  obtain ⟨below, hbelow, hlists, -⟩ := hwalk ⟨1, 1⟩ hl
  have hs : ((Screen.new ⟨480, 320⟩).after os).Sound :=
    Screen.after_sound (Screen.sound_new _) os
  have hlisted : below = [⟨2, 1⟩, ⟨4, 1⟩] := by
    rw [← he, descendants?_ofScreen hs ⟨1, 1⟩ (by decide +kernel)] at hbelow
    rw [← Option.some.inj hbelow]
    decide +kernel
  exact ⟨a, ha, hl, hlisted ▸ hbelow, hlisted ▸ hlists⟩

end Arena
end ScreenMarkup
