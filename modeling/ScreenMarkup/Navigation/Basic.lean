import ScreenMarkup.Error
import ScreenMarkup.Markup.Document
import ScreenMarkup.Screen.Basic

/-!
# Pages and groups

A screen shows one page at a time: a page of its own, or a tile of a group
that can be swiped. The navigation knows the widgets of all pages, groups and
keyboards and which of them is shown.
-/

set_option autoImplicit false

namespace ScreenMarkup

inductive Orientation where
  | horizontal | vertical
deriving DecidableEq, Inhabited

def Orientation.ofKeyword (s : String) : Orientation :=
  if s = "vertical" ∨ s = "v" then vertical else horizontal

/-- How a group shows which of its pages is active. -/
inductive Indicator where
  | scrollbar | dots | none
deriving DecidableEq, Inhabited

def Indicator.ofKeyword (s : String) : Indicator :=
  if s = "dots" then dots else if s = "none" then none else scrollbar

structure Page where
  id : String
  widget : Handle
deriving DecidableEq, Inhabited

structure PageGroup where
  id : String
  /-- The page that the group leads to; empty for its first. -/
  defaultPage : String
  orientation : Orientation
  indicator : Indicator
  view : Handle
  pages : List Page := []
  dots : Option Handle := Option.none
  current : Nat := 0
deriving DecidableEq, Inhabited

structure Navigation where
  pages : List Page := []
  groups : List PageGroup := []
  currentPage : Option Nat := none
  currentGroup : Option Nat := none
  /-- The keyboard of each page that has one. -/
  keyboards : List (Handle × Handle) := []
deriving DecidableEq, Inhabited

namespace PageGroup

def pageIndex? (g : PageGroup) (id : String) : Option Nat := g.pages.findIdx? (·.id = id)

/-- The page that the group leads to. -/
def landing (g : PageGroup) : String :=
  if g.defaultPage = "" then (g.pages.head?.map (·.id)).getD "" else g.defaultPage

def setHidden (g : PageGroup) (s : Screen) (b : Bool) : Screen :=
  let s := s.setHidden g.view b
  match g.dots with
  | some d => s.setHidden d b
  | none => s

def activeColor : Nat := 0xFFFFFF
def inactiveColor : Nat := 0x666666

def dotColor (i active : Nat) : Nat := if i = active then activeColor else inactiveColor

/-- Colors the dots so that one stands out. -/
def highlight (g : PageGroup) (s : Screen) (active : Nat) : Screen :=
  match g.dots with
  | some d =>
    (s.children d).zipIdx.foldl
      (fun s dot => s.applyStyle dot.1 (.bgColor (dotColor dot.2 active))) s
  | none => s

end PageGroup

namespace Navigation

def pageIndex? (n : Navigation) (id : String) : Option Nat := n.pages.findIdx? (·.id = id)

def groupIndex? (n : Navigation) (id : String) : Option Nat := n.groups.findIdx? (·.id = id)

def group? (n : Navigation) (id : String) : Option PageGroup := n.groups.find? (·.id = id)

/-- The id of the page that is shown. -/
def currentId (n : Navigation) : String :=
  let tile := do
    let g ← n.groups[← n.currentGroup]?
    let p ← g.pages[g.current]?
    some p.id
  let page := do
    let p ← n.pages[← n.currentPage]?
    some p.id
  (tile.or page).getD ""

/-! ## Goals -/

/-- What can be shown: a page, or a page of a group. -/
inductive Goal where
  | page (index : Nat)
  | tile (group page : Nat)
deriving DecidableEq, Inhabited

/-- The group and the page of a path `group/page`. -/
def splitPath? (path : String) : Option (String × String) :=
  (Text.cut? ['/'] path.toList).map fun p => (String.ofList p.1, String.ofList p.2)

def tileGoal (n : Navigation) (group page : String) : Except Failure Goal :=
  match n.groupIndex? group with
  | none => .error (.unknownPage group)
  | some gi =>
    match n.groups[gi]?.bind (·.pageIndex? page) with
    | none => .error (.unknownGroupPage group page)
    | some pi => .ok (.tile gi pi)

def pageGoal (n : Navigation) (id : String) : Except Failure Goal :=
  match n.pageIndex? id with
  | some i => .ok (.page i)
  | none => .error (.unknownPage id)

/-- A path that names a group leads on to the group's landing page. -/
def redirect? (n : Navigation) (path : String) : Option String :=
  if (splitPath? (Text.dropSlash path)).isSome then none
  else (n.group? (Text.dropSlash path)).map fun g => g.id ++ "/" ++ g.landing

/-- The goal of a path that is not led on. -/
def direct (n : Navigation) (path : String) : Except Failure Goal :=
  match splitPath? (Text.dropSlash path) with
  | some (group, page) => n.tileGoal group page
  | none => n.pageGoal (Text.dropSlash path)

/-- Follows up to a number of redirections. -/
def follow (n : Navigation) : Nat → String → Except Failure Goal
  | 0, path => n.direct path
  | k + 1, path =>
    match n.redirect? path with
    | some next => n.follow k next
    | none => n.direct path

/-- Only a group without a name can lead on to another group, so two redirections reach every
goal there is. -/
def goal (n : Navigation) (path : String) : Except Failure Goal := n.follow 2 path

/-! ## Showing -/

def hideKeyboards (n : Navigation) (s : Screen) : Screen :=
  n.keyboards.foldl (fun s k => s.setHidden k.2 true) s

def hidePages (n : Navigation) (s : Screen) (hidden : Nat → Bool) : Screen :=
  n.pages.zipIdx.foldl (fun s p => s.setHidden p.1.widget (hidden p.2)) s

def hideGroups (n : Navigation) (s : Screen) (hidden : Nat → Bool) : Screen :=
  n.groups.zipIdx.foldl (fun s g => g.1.setHidden s (hidden g.2)) s

def modifyGroup (n : Navigation) (i : Nat) (f : PageGroup → PageGroup) : Navigation :=
  { n with groups := n.groups.modify i f }

def showTile (n : Navigation) (s : Screen) (gi pi : Nat) : Navigation × Screen :=
  let s := n.hideKeyboards (n.hideGroups (n.hidePages s fun _ => true) fun i => i ≠ gi)
  let s := match n.groups[gi]? with
    | some g =>
      let s := match g.pages[pi]? with
        | some p => s.setActiveTile g.view p.widget
        | none => s
      g.highlight s pi
    | none => s
  ({ n.modifyGroup gi ({ · with current := pi }) with
      currentGroup := some gi, currentPage := none }, s)

def showPage (n : Navigation) (s : Screen) (i : Nat) : Navigation × Screen :=
  let s := n.hidePages (n.hideKeyboards (n.hideGroups s fun _ => true)) fun j => j ≠ i
  ({ n with currentGroup := none, currentPage := some i }, s)

def showGoal (n : Navigation) (s : Screen) : Goal → Navigation × Screen
  | .page i => n.showPage s i
  | .tile gi pi => n.showTile s gi pi

/-- Shows a page, a group, or a page of a group, and hides all others. -/
def display (n : Navigation) (s : Screen) (path : String) : Except Failure (Navigation × Screen) :=
  (n.goal path).map (n.showGoal s)

/-- Shows the page that lies some steps from the current one; there is nothing beyond the ends. -/
def step (n : Navigation) (s : Screen) (delta : Int) : Except Failure (Navigation × Screen) :=
  let next : Int := (n.currentPage.map Int.ofNat).getD (-1) + delta
  if next < 0 then .ok (n, s)
  else
    match n.pages[next.toNat]? with
    | some p => n.display s p.id
    | none => .ok (n, s)

/-! ## Redirections without a count

A path that names a group leads on to another path, which may lead on in its
turn. Paths are followed for as long as they lead on, and nothing counts how
often. Where they lead on for ever there is no answer, not even a failure. -/

/-- The path and those that it leads on to, in order, if they come to an end. -/
def chain? (n : Navigation) (path : String) : Option (List String) :=
  match n.redirect? path with
  | some next => do
    let paths ← n |>.chain? next
    some (path :: paths)
  | none => some [path]
partial_fixpoint

/-- The goal of the path in which the chain ends. -/
def reach? (n : Navigation) (path : String) : Option (Except Failure Goal) :=
  (n.chain? path).map fun paths => n.direct (paths.getLastD path)

def display? (n : Navigation) (s : Screen) (path : String) :
    Option (Except Failure (Navigation × Screen)) :=
  (n.reach? path).map (·.map (n.showGoal s))

/-- The page some steps from the current one is shown by its id, which may lead on. -/
def step? (n : Navigation) (s : Screen) (delta : Int) :
    Option (Except Failure (Navigation × Screen)) :=
  let next : Int := (n.currentPage.map Int.ofNat).getD (-1) + delta
  if next < 0 then some (.ok (n, s))
  else
    match n.pages[next.toNat]? with
    | some p => n.display? s p.id
    | none => some (.ok (n, s))

/-! ## Swiping -/

/-- A group was swiped: the active tile of its view is now its current page. -/
def swiped (n : Navigation) (s : Screen) (gi : Nat) : Navigation × Screen :=
  match n.groups[gi]? with
  | none => (n, s)
  | some g =>
    let active := s.activeTile? g.view
    let i := (g.pages.findIdx? fun p => some p.widget = active).getD 0
    (n.modifyGroup gi ({ · with current := i }), g.highlight s i)

/-! ## Keyboards -/

def isPage (n : Navigation) (h : Handle) : Bool :=
  n.pages.any (·.widget = h) || n.groups.any fun g => g.pages.any (·.widget = h)

/-- The page or tile around a widget. -/
def pageAround? (n : Navigation) (s : Screen) (h : Handle) : Option Handle :=
  (s.ancestors h).find? n.isPage

def keyboard? (n : Navigation) (page : Handle) : Option Handle := n.keyboards.lookup page

/-- The keyboard of a page and whether it is new. A new one is hidden and takes the lower two
fifths of the page. -/
def keyboard (n : Navigation) (s : Screen) (page : Handle) :
    (Handle × Bool) × Navigation × Screen :=
  match n.keyboard? page with
  | some k => ((k, false), n, s)
  | none =>
    let size := (s.rect page).size
    let (k, s) := s.create .keyboard page
    let s := s.setSize k size.width ((size.height * 40).tdiv 100)
    let s := (s.align k .bottomMid {}).setHidden k true
    ((k, true), { n with keyboards := n.keyboards ++ [(page, k)] }, s)

end Navigation
end ScreenMarkup
