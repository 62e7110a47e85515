import ScreenMarkup.Proofs.Navigation.Groups
import ScreenMarkup.Proofs.Text.Cutting

/-!
# What an id leads to

Pages, groups and the tiles of groups go by ids, and the first of them with an
id has it. An id leads to what has it, unless it is taken for a path to
something else. A group without a page to open with leads nowhere.
-/

set_option autoImplicit false

namespace ScreenMarkup

/-- What goes by an id: a page, a group, or a tile of a group. -/
inductive Choice where
  | page (p : Page)
  | group (g : PageGroup)
  | tile (g : PageGroup) (p : Page)
deriving DecidableEq

namespace Choice

def id : Choice → String
  | page p => p.id
  | group g => g.id
  | tile g p => g.id ++ "/" ++ p.id

def widget : Choice → Handle
  | page p => p.widget
  | group g => g.view
  | tile _ p => p.widget

/-- The id is no path to something else: pages and groups have none with a slash, and the group of a
tile is the first with its id. -/
def Plain (n : Navigation) : Choice → Prop
  | page p => '/' ∉ p.id.toList
  | group g => '/' ∉ g.id.toList
  | tile g _ => '/' ∉ g.id.toList ∧ n.group? g.id = some g

/-- There is a page to be shown: for a group, the one that it leads to. -/
def Opens : Choice → Prop
  | group g => ∃ p ∈ g.pages, p.id = g.landing
  | _ => True

instance (n : Navigation) : (x : Choice) → Decidable (x.Plain n)
  | page p => inferInstanceAs (Decidable ('/' ∉ p.id.toList))
  | group g => inferInstanceAs (Decidable ('/' ∉ g.id.toList))
  | tile g _ => inferInstanceAs (Decidable ('/' ∉ g.id.toList ∧ n.group? g.id = some g))

instance : (x : Choice) → Decidable x.Opens
  | page _ => .isTrue trivial
  | group g => inferInstanceAs (Decidable (∃ p ∈ g.pages, p.id = g.landing))
  | tile _ _ => .isTrue trivial

end Choice

/-- The tiles of a group come before the group. -/
def PageGroup.choices (g : PageGroup) : List Choice := g.pages.map (.tile g) ++ [.group g]

namespace Navigation

variable {n : Navigation} {g : PageGroup} {p : Page} {x : Choice} {id : String}

/-- All that goes by an id: the groups, and then the pages. -/
def choices (n : Navigation) : List Choice :=
  n.groups.flatMap PageGroup.choices ++ n.pages.map .page

def choice? (n : Navigation) (id : String) : Option Choice := n.choices.find? (·.id = id)

/-! ## Who has an id -/

/-- Where the first with its id is found. -/
def Finds (n : Navigation) : Choice → Prop
  | .page p => (∀ g ∈ n.groups, g.id ≠ p.id) ∧ n.pages.find? (·.id = p.id) = some p
  | .group g => n.group? g.id = some g
  | .tile g p => g ∈ n.groups ∧ g.pages.find? (·.id = p.id) = some p

theorem id_of_choice? (hx : n.choice? id = some x) : x.id = id := by
  simpa using List.find?_some hx

theorem choice?_finds (hx : n.choice? id = some x) : n.Finds x := by
  have hid : x.id = id := id_of_choice? hx
  have hgroup {g : PageGroup} (hnone : g.choices.find? (·.id = id) = none) : g.id ≠ id := by
    have hall := List.find?_eq_none.mp hnone (.group g) List.mem_concat_self
    exact fun he => hall (decide_eq_true he)
  unfold choice? choices at hx
  rw [List.find?_append, Option.or_eq_some_iff, List.find?_flatMap] at hx
  rcases hx with hx | ⟨hnone, hx⟩
  · obtain ⟨before, g, after, hgroups, hfound, hbefore⟩ := List.findSome?_eq_some_iff.mp hx
    rw [PageGroup.choices, List.find?_append, Option.or_eq_some_iff, List.find?_map] at hfound
    rcases hfound with hfound | ⟨-, hfound⟩
    · obtain ⟨p, hp, rfl⟩ := Option.map_eq_some_iff.mp hfound
      have hpath : ((fun x : Choice => decide (x.id = id)) ∘ Choice.tile g) =
          fun q => decide (q.id = p.id) := by
        funext q
        rw [Function.comp_apply, ← hid]
        show decide (g.id ++ "/" ++ q.id = g.id ++ "/" ++ p.id) = decide (q.id = p.id)
        congr 1
        simp
      rw [hpath] at hp
      exact ⟨hgroups ▸ List.mem_append_right _ List.mem_cons_self, hp⟩
    · rw [List.find?_singleton] at hfound
      obtain ⟨-, hsome⟩ := Option.ite_none_right_eq_some.mp hfound
      cases hsome
      have hid : g.id = id := hid
      refine List.find?_eq_some_iff_append.mpr ⟨decide_eq_true rfl, before, after, hgroups,
        fun k hk => ?_⟩
      simpa [hid] using hgroup (hbefore k hk)
  · rw [List.find?_map] at hx
    obtain ⟨p, hp, rfl⟩ := Option.map_eq_some_iff.mp hx
    have hid : p.id = id := hid
    subst hid
    rw [← List.find?_flatMap] at hnone
    refine ⟨fun g hg => hgroup (List.find?_eq_none.mpr fun y hy => ?_), hp⟩
    exact List.find?_eq_none.mp hnone y (List.mem_flatMap.mpr ⟨g, hg, hy⟩)

/-! ## Paths -/

theorem splitPath?_eq_none : splitPath? id = none ↔ '/' ∉ id.toList := by
  rw [splitPath?, Option.map_eq_none_iff, Text.cut?_singleton_eq_none]

theorem splitPath?_append {group : String} (hs : '/' ∉ group.toList) (page : String) :
    splitPath? (group ++ "/" ++ page) = some (group, page) := by
  have hpath : (group ++ "/" ++ page).toList = group.toList ++ '/' :: page.toList := by simp
  have hcut : Text.cut? ['/'] (group ++ "/" ++ page).toList = some (group.toList, page.toList) :=
    Text.cut?_singleton.mpr ⟨hs, hpath⟩
  rw [splitPath?, hcut]
  simp

theorem dropSlash_eq (hs : id.toList.head? ≠ some '/') : Text.dropSlash id = id := by
  unfold Text.dropSlash
  split
  · next he =>
    rw [he] at hs
    exact absurd rfl hs
  · rfl

theorem head?_ne_slash {s : List Char} (hs : '/' ∉ s) : s.head? ≠ some '/' :=
  fun he => hs (List.mem_of_head? he)

/-- The path of a tile begins with the name of its group. -/
theorem dropSlash_path {group page : String} (hs : '/' ∉ group.toList) (hne : group ≠ "") :
    Text.dropSlash (group ++ "/" ++ page) = group ++ "/" ++ page := by
  apply dropSlash_eq
  have hnil : group.toList ≠ [] := fun he => hne (String.toList_eq_nil_iff.mp he)
  obtain ⟨c, cs, hcs⟩ := List.exists_cons_of_ne_nil hnil
  rw [hcs] at hs
  simpa [hcs] using fun he : c = '/' => hs (he ▸ List.mem_cons_self)

theorem redirect?_path {group page : String} (hs : '/' ∉ group.toList) (hne : group ≠ "") :
    n.redirect? (group ++ "/" ++ page) = none := by
  simp [redirect?, dropSlash_path hs hne, splitPath?_append hs page]

/-! ## Goals -/

theorem find?_getElem? {α : Type} {as : List α} {a : α} {f : α → Bool}
    (ha : as.find? f = some a) : ∃ i, as.findIdx? f = some i ∧ as[i]? = some a := by
  rw [List.find?_eq_bind_findIdx?_getElem?] at ha
  exact Option.bind_eq_some_iff.mp ha

theorem goal_page (hs : '/' ∉ p.id.toList) (hx : n.Finds (.page p)) :
    ∃ i, n.pages[i]? = some p ∧ n.goal p.id = .ok (.page i) := by
  obtain ⟨hgroups, hp⟩ := hx
  obtain ⟨i, hi, hpage⟩ := find?_getElem? hp
  have hdrop := dropSlash_eq (head?_ne_slash hs)
  have hsplit := splitPath?_eq_none.mpr hs
  have hnone : n.group? p.id = none :=
    List.find?_eq_none.mpr fun g hg => by simpa using hgroups g hg
  refine ⟨i, hpage, ?_⟩
  have hredirect : n.redirect? p.id = none := by
    simp [redirect?, hdrop, hsplit, hnone]
  have hdirect : n.direct p.id = .ok (.page i) := by
    simp [direct, hdrop, hsplit, pageGoal, pageIndex?, hi]
  simp [goal, follow, hredirect, hdirect]

/-- A path with a slash is that of a tile. -/
theorem follow_path {group page : String} (hs : '/' ∉ group.toList) (hne : group ≠ "") (k : Nat) :
    n.follow k (group ++ "/" ++ page) = n.tileGoal group page := by
  have hdrop : Text.dropSlash (group ++ "/" ++ page) = group ++ "/" ++ page :=
    dropSlash_path hs hne
  have hsplit := splitPath?_append hs page
  have hdirect : n.direct (group ++ "/" ++ page) = n.tileGoal group page := by
    simp [direct, hdrop, hsplit]
  cases k with
  | zero => exact hdirect
  | succ k =>
    rw [follow, redirect?_path hs hne]
    exact hdirect

theorem tileGoal_ok (hg : n.group? g.id = some g) {page : String}
    (hp : g.pages.find? (·.id = page) = some p) :
    ∃ gi pi, n.groups[gi]? = some g ∧ g.pages[pi]? = some p ∧
      n.tileGoal g.id page = .ok (.tile gi pi) := by
  obtain ⟨gi, hgi, hgroup⟩ := find?_getElem? hg
  obtain ⟨pi, hpi, hpage⟩ := find?_getElem? hp
  refine ⟨gi, pi, hgroup, hpage, ?_⟩
  simp [tileGoal, groupIndex?, hgi, hgroup, PageGroup.pageIndex?, hpi]

theorem tileGoal_error (hg : n.group? g.id = some g) {page : String}
    (hp : ∀ p ∈ g.pages, p.id ≠ page) :
    n.tileGoal g.id page = .error (.unknownGroupPage g.id page) := by
  obtain ⟨gi, hgi, hgroup⟩ := find?_getElem? hg
  have hnone : g.pages.findIdx? (·.id = page) = none :=
    List.findIdx?_eq_none_iff.mpr fun p hm => decide_eq_false (hp p hm)
  simp [tileGoal, groupIndex?, hgi, hgroup, PageGroup.pageIndex?, hnone]

/-- The id of a group leads on to its landing page. -/
theorem goal_group (hs : '/' ∉ g.id.toList) (hne : g.id ≠ "") (hg : n.group? g.id = some g) :
    n.goal g.id = n.tileGoal g.id g.landing := by
  have hredirect : n.redirect? g.id = some (g.id ++ "/" ++ g.landing) := by
    simp [redirect?, dropSlash_eq (head?_ne_slash hs), splitPath?_eq_none.mpr hs, hg]
  rw [goal, follow, hredirect]
  exact follow_path hs hne 1

end Navigation
end ScreenMarkup
