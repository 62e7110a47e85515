import ScreenMarkup.Control.Basic
import ScreenMarkup.Proofs.Screen.Renaming
import ScreenMarkup.Session.Basic

/-!
# Renaming what a session keeps

Controls, listeners and pages name widgets. Finding a control, a page or a
goal does not look at the names, and registering a listener only compares
them.
-/

set_option autoImplicit false

namespace ScreenMarkup

variable {f : Handle → Handle} {ρ : Renaming} {h : Handle}

def Control.rename (f : Handle → Handle) (c : Control) : Control :=
  { c with obj := f c.obj, outer := c.outer.map f }

def Subscription.rename (f : Handle → Handle) (q : Subscription) : Subscription :=
  { q with widget := f q.widget }

def Router.rename (f : Handle → Handle) (r : Router) : Router where
  subscriptions := r.subscriptions.map (Subscription.rename f)
  queue := r.queue.map (Prod.map f id)

def Page.rename (f : Handle → Handle) (p : Page) : Page := { p with widget := f p.widget }

def PageGroup.rename (f : Handle → Handle) (g : PageGroup) : PageGroup :=
  { g with view := f g.view, pages := g.pages.map (Page.rename f), dots := g.dots.map f }

def Navigation.rename (f : Handle → Handle) (n : Navigation) : Navigation :=
  { n with
    pages := n.pages.map (Page.rename f)
    groups := n.groups.map (PageGroup.rename f)
    keyboards := n.keyboards.map (Prod.map f f) }

/-! ## One renaming after another -/

theorem Control.rename_rename (f g : Handle → Handle) (c : Control) :
    (c.rename f).rename g = c.rename (g ∘ f) := by
  simp only [Control.rename, Option.map_map, Function.comp_apply]

theorem Router.rename_rename (f g : Handle → Handle) (r : Router) :
    (r.rename f).rename g = r.rename (g ∘ f) := by
  simp only [Router.rename, List.map_map]
  rfl

theorem PageGroup.rename_rename (f g : Handle → Handle) (p : PageGroup) :
    (p.rename f).rename g = p.rename (g ∘ f) := by
  simp only [PageGroup.rename, List.map_map, Option.map_map]
  rfl

theorem Navigation.rename_rename (f g : Handle → Handle) (n : Navigation) :
    (n.rename f).rename g = n.rename (g ∘ f) := by
  have hgroups : PageGroup.rename g ∘ PageGroup.rename f = PageGroup.rename (g ∘ f) :=
    funext (PageGroup.rename_rename f g)
  simp only [Navigation.rename, List.map_map, hgroups]
  rfl

/-! ## Controls -/

namespace Control

theorem target_rename (c : Control) : (c.rename f).target = f c.target := by
  obtain ⟨_, _, _, outer⟩ := c
  cases outer <;> rfl

end Control

theorem Controls.widgetIndex?_rename (cs : Controls) (h : Handle) :
    Controls.widgetIndex? (cs.map (Control.rename ρ)) (ρ h) = cs.widgetIndex? h := by
  rw [Controls.widgetIndex?, Controls.widgetIndex?, List.findIdx?_map]
  congr 1
  funext c
  have houter : (c.outer.map ρ = some (ρ h)) ↔ c.outer = some h := by
    cases c.outer <;> simp
  show (decide (ρ c.obj = ρ h) || decide (c.outer.map ρ = some (ρ h))) = _
  simp only [ρ.eq_iff, houter]

theorem Controls.modify_rename {g : Control → Control} (hg : ∀ c, g (c.rename f) = (g c).rename f)
    (cs : Controls) (i : Nat) :
    (cs.map (Control.rename f)).modify i g = (cs.modify i g).map (Control.rename f) := by
  induction cs generalizing i with
  | nil => simp
  | cons c cs ih =>
    cases i with
    | zero => simp [hg]
    | succ i => simp [ih]

theorem lookup_rename {β : Type} (es : List (Handle × β)) (h : Handle) :
    (es.map (Prod.map ρ id)).lookup (ρ h) = es.lookup h := by
  induction es with
  | nil => rfl
  | cons e es ih =>
    obtain ⟨k, b⟩ := e
    have hkey : (ρ h == ρ k) = (h == k) := by
      rw [Bool.eq_iff_iff]
      simp
    simp only [List.map_cons, Prod.map_apply, List.lookup_cons, hkey, ih, id_eq]

theorem filter_rename {β : Type} (es : List (Handle × β)) (h : Handle) :
    (es.map (Prod.map ρ id)).filter (fun e => e.1 ≠ ρ h) =
      (es.filter fun e => e.1 ≠ h).map (Prod.map ρ id) := by
  rw [List.filter_map]
  congr 2
  funext e
  simp

/-! ## Stacking -/

namespace Screen

/-- Choosing and sorting controls by what is not a handle. -/
theorem stacked_rename {p : Control → Bool} (hp : ∀ c : Control, p (c.rename f) = p c)
    (le : Int → Int → Bool) (cs : Controls) :
    (((cs.map (Control.rename f)).filter p).map fun c => (c.zIndex, c.target)).mergeSort
        (fun a b => le a.1 b.1) =
      (((cs.filter p).map fun c => (c.zIndex, c.target)).mergeSort
        fun a b => le a.1 b.1).map (Prod.map id f) := by
  have hsort (es : List (Int × Handle)) : (es.mergeSort fun a b => le a.1 b.1).map (Prod.map id f) =
      (es.map (Prod.map id f)).mergeSort fun a b => le a.1 b.1 :=
    List.map_mergeSort fun _ _ _ _ => rfl
  rw [hsort, List.filter_map, List.map_map, List.map_map, show p ∘ Control.rename f = p from
    funext hp]
  congr 1
  exact List.map_congr_left fun c _ => congrArg (Prod.mk c.zIndex) c.target_rename

theorem sunken_rename (cs : Controls) :
    sunken (cs.map (Control.rename f)) = (sunken cs).map (Prod.map id f) :=
  stacked_rename (fun _ => rfl) (fun a b => b ≤ a) cs

theorem raised_rename (cs : Controls) :
    raised (cs.map (Control.rename f)) = (raised cs).map (Prod.map id f) :=
  stacked_rename (fun _ => rfl) (fun a b => a ≤ b) cs

end Screen

/-! ## Listeners -/

namespace Router

theorem subscribe_rename (entry : EventKind × Listener) (ss : List Subscription) :
    subscribe (ρ h) entry (ss.map (Subscription.rename ρ)) =
      (subscribe h entry ss).map (Subscription.rename ρ) := by
  induction ss with
  | nil => rfl
  | cons q ss ih =>
    simp only [List.map_cons, subscribe, ih]
    show (if (ρ q.widget).slot = (ρ h).slot then _ else _) = _
    by_cases hs : q.widget.slot = h.slot
    · rw [if_pos hs, if_pos ((ρ.slot _ _).mpr hs)]
      show (if (ρ q.widget).generation = (ρ h).generation then _
        else if (ρ q.widget).generation < (ρ h).generation then _ else _) = _
      simp only [ρ.generation_iff hs, ρ.earlier _ _ hs]
      split
      · rfl
      · split <;> rfl
    · rw [if_neg hs, if_neg fun he => hs ((ρ.slot _ _).mp he)]
      rfl

theorem on_rename (r : Router) (h : Handle) (kind : EventKind) (l : Listener) :
    (r.rename ρ).on (ρ h) kind l = (r.on h kind l).rename ρ := by
  unfold on
  simp only [ρ.unnamed]
  split
  · rfl
  · exact congrArg (Router.mk · _) (subscribe_rename (kind, l) r.subscriptions)

theorem onAll_rename (r : Router) (h : Handle) (kinds : List EventKind) (l : Listener) :
    (r.rename ρ).onAll (ρ h) kinds l = (r.onAll h kinds l).rename ρ := by
  unfold onAll
  induction kinds generalizing r with
  | nil => rfl
  | cons kind kinds ih =>
    rw [List.foldl_cons, List.foldl_cons, on_rename]
    exact ih _

end Router

/-! ## Pages -/

namespace Navigation

theorem modifyGroup_rename {g k : PageGroup → PageGroup}
    (hg : ∀ e : PageGroup, k (e.rename f) = (g e).rename f) (n : Navigation) (i : Nat) :
    (n.rename f).modifyGroup i k = (n.modifyGroup i g).rename f := by
  unfold modifyGroup rename
  congr 1
  show (n.groups.map (PageGroup.rename f)).modify i k = _
  induction n.groups generalizing i with
  | nil => simp
  | cons e es ih =>
    cases i with
    | zero => simp [hg]
    | succ i => simp [ih]

theorem pageIndex?_rename (n : Navigation) (id : String) :
    (n.rename f).pageIndex? id = n.pageIndex? id :=
  List.findIdx?_map ..

theorem groupIndex?_rename (n : Navigation) (id : String) :
    (n.rename f).groupIndex? id = n.groupIndex? id :=
  List.findIdx?_map ..

theorem groups_rename (n : Navigation) (i : Nat) :
    (n.rename f).groups[i]? = n.groups[i]?.map (PageGroup.rename f) :=
  List.getElem?_map ..

theorem group?_rename (n : Navigation) (id : String) :
    (n.rename f).group? id = (n.group? id).map (PageGroup.rename f) :=
  List.find?_map ..

theorem landing_rename (g : PageGroup) : (g.rename f).landing = g.landing := by
  unfold PageGroup.landing PageGroup.rename
  rw [List.head?_map, Option.map_map]
  rfl

theorem tileGoal_rename (n : Navigation) (group page : String) :
    (n.rename f).tileGoal group page = n.tileGoal group page := by
  have hpage (gi : Nat) : (n.rename f).groups[gi]?.bind (·.pageIndex? page) =
      n.groups[gi]?.bind (·.pageIndex? page) := by
    rw [groups_rename, Option.bind_map]
    congr 1
    funext g
    exact List.findIdx?_map ..
  simp only [tileGoal, groupIndex?_rename, hpage]

theorem direct_rename (n : Navigation) (path : String) :
    (n.rename f).direct path = n.direct path := by
  simp only [direct, tileGoal_rename, pageGoal, pageIndex?_rename]

theorem redirect?_rename (n : Navigation) (path : String) :
    (n.rename f).redirect? path = n.redirect? path := by
  unfold redirect?
  rw [group?_rename, Option.map_map]
  congr 2
  funext g
  exact congrArg (g.id ++ "/" ++ ·) (landing_rename g)

/-- Where a path leads to is a matter of ids. -/
theorem goal_rename (n : Navigation) (path : String) : (n.rename f).goal path = n.goal path := by
  have hfollow (k : Nat) (path : String) : (n.rename f).follow k path = n.follow k path := by
    induction k generalizing path with
    | zero => exact direct_rename n path
    | succ k ih => simp only [follow, redirect?_rename, direct_rename, ih]
  exact hfollow 2 path

end Navigation
end ScreenMarkup
