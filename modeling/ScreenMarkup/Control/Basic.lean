import ScreenMarkup.Content.Canvas
import ScreenMarkup.Screen.Basic
import ScreenMarkup.State.Template

/-!
# Controls

A control is a widget that can be found again: by its id, by a variable that
it shows, or by an event. Controls are kept in the order in which they were
registered, and their positions in that list stay the same until all go.
Siblings are stacked by the z-index of their controls: those below zero move
to the back and those above zero to the front; the others, and pages, stay.
-/

set_option autoImplicit false

namespace ScreenMarkup

inductive ControlKind where
  | label | button | switch | slider | input | canvas | image | markdown | tabs
  /-- A page, a tile or a group. -/
  | page
deriving DecidableEq, Inhabited

namespace ControlKind

def ofTag? (tag : String) : Option ControlKind :=
  match tag with
  | "label" => some label
  | "button" => some button
  | "switch" => some switch
  | "slider" => some slider
  | "input" | "textarea" => some input
  | "canvas" => some canvas
  | "image" => some image
  | "markdown" => some markdown
  | "tabs" => some tabs
  | _ => none

/-- The tag that rules select the kind by. -/
def tag : ControlKind → String
  | label => "label"
  | button => "button"
  | switch => "switch"
  | slider => "slider"
  | input => "input"
  | canvas => "canvas"
  | image => "image"
  | markdown => "markdown"
  | tabs => "tabs"
  | page => "page"

/-- Generated ids start like this. -/
def idStem : ControlKind → String
  | label => "_lbl"
  | button => "_btn"
  | switch => "_sw"
  | slider => "_sl"
  | input => "_inp"
  | canvas => "_canvas"
  | image => "_img"
  | markdown => "_md"
  | tabs => "_tabs"
  | page => "_page"

end ControlKind

/-- The host functions of a control; empty names are no functions. -/
structure Actions where
  onclick : String := ""
  onhold : String := ""
  onchange : String := ""
  /-- Where a click navigates to. -/
  href : String := ""
  ondraw : String := ""
  ontap : String := ""
deriving DecidableEq, Inhabited

structure Control where
  id : String
  kind : ControlKind
  /-- The widget that shows the text or value. -/
  obj : Handle
  /-- The widget around it, such as the button around a label. -/
  outer : Option Handle := none
  template : Option String := none
  classTemplate : Option String := none
  visibleBind : Option String := none
  bgcolorBind : Option String := none
  colorBind : Option String := none
  bind : Option String := none
  zIndex : Int := 0
  actions : Actions := {}
  /-- How a rich text shows its template. -/
  theme : Option Theme := none
  canvas : Option Canvas := none
  /-- When a slider was last let through. -/
  lastUpdate : Option Nat := none

namespace Control

/-- A text that contains a placeholder. -/
def dynamic? (t : String) : Option String := if Template.isDynamic t then some t else none

def bound? (binding : String) : Option String :=
  let name := Template.boundName binding
  if name = "" then none else some name

def nonempty? (name : String) : Option String := if name = "" then none else some name

/-- The widget that place, visibility, background and stacking belong to. -/
def target (c : Control) : Handle := c.outer.getD c.obj

def isPage (c : Control) : Bool := c.kind = .page

end Control

abbrev Controls := List Control

namespace Controls

def find? (cs : Controls) (id : String) : Option Control := List.find? (·.id = id) cs

def index? (cs : Controls) (id : String) : Option Nat := List.findIdx? (·.id = id) cs

/-- The first control that has a widget as its own or as the one around it. -/
def widgetIndex? (cs : Controls) (h : Handle) : Option Nat :=
  List.findIdx? (fun c => c.obj = h || c.outer = some h) cs

end Controls

namespace Screen

/-- The widgets with a negative z-index, the highest first. -/
def sunken (controls : Controls) : List (Int × Handle) :=
  ((controls.filter fun c => !c.isPage && c.zIndex < 0).map fun c => (c.zIndex, c.target)).mergeSort
    fun a b => b.1 ≤ a.1

/-- The widgets with a positive z-index, the lowest first. -/
def raised (controls : Controls) : List (Int × Handle) :=
  ((controls.filter fun c => !c.isPage && 0 < c.zIndex).map fun c => (c.zIndex, c.target)).mergeSort
    fun a b => a.1 ≤ b.1

def stack (s : Screen) (controls : Controls) : Screen :=
  let s := (sunken controls).foldl (fun s e => s.moveTo e.2 0) s
  (raised controls).foldl (fun s e => s.raise e.2) s

end Screen
end ScreenMarkup
