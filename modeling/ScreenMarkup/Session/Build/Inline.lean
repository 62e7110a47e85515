import ScreenMarkup.Screen.Cascade
import ScreenMarkup.Session.Basic

/-!
# Inline attributes

The attributes that every widget understands, and those that style and place
it. They are applied after all rules, and so they beat every rule.
-/

set_option autoImplicit false

namespace ScreenMarkup

/-- The attributes that every widget understands. -/
structure WidgetAttrs where
  id : String
  classes : String
  visible : String
  zIndex : Int
deriving DecidableEq, Inhabited

namespace WidgetAttrs

def ofElement (e : Element) : WidgetAttrs where
  id := e.attr "id"
  classes := e.attr "class"
  visible := e.attr "visible"
  zIndex := e.attrInt "z-index" 0

def hasBoundClasses (a : WidgetAttrs) : Bool := Template.isDynamic a.classes

def hasBoundVisibility (a : WidgetAttrs) : Bool := Template.isDynamic a.visible

/-- Hidden for good: neither bound nor empty nor true. -/
def isHiddenForGood (a : WidgetAttrs) : Bool :=
  a.visible ≠ "" && !a.hasBoundVisibility && !readBool a.visible

/-- The control of a widget with these attributes. -/
def control (a : WidgetAttrs) (kind : ControlKind) (obj : Handle) : Control where
  id := a.id
  kind := kind
  obj := obj
  classTemplate := Control.dynamic? a.classes
  visibleBind := if a.hasBoundVisibility then Control.bound? a.visible else none
  zIndex := a.zIndex

end WidgetAttrs

/-- Inline attributes with their values; what is missing leaves the rules' result. -/
structure Inline where
  x : Option Int := none
  y : Option Int := none
  w : Option Int := none
  h : Option Int := none
  color : Option Nat := none
  bgcolor : Option Nat := none
  font : Option Int := none
  radius : Option Int := none
deriving DecidableEq, Inhabited

def positive? (n : Int) : Option Int := if 0 < n then some n else none

namespace Screen

/-- Colors of the text and its font go to `text`, everything else to `h`. Place and size win
per axis. -/
def applyInline (s : Screen) (h text : Handle) (i : Inline) : Screen :=
  let s := match i.bgcolor with
    | some c => s.setBackground h c
    | none => s
  let s := match i.radius with
    | some r => s.applyStyle h (.radius r)
    | none => s
  let s := match i.color with
    | some c => s.applyStyle text (.textColor c)
    | none => s
  let s := match i.font with
    | some f => s.applyStyle text (.font (Font.nearest f))
    | none => s
  let s :=
    if i.x.isSome || i.y.isSome then
      s.setPos h (i.x.getD (s.rect h).x) (i.y.getD (s.rect h).y)
    else s
  if i.w.isSome || i.h.isSome then
    s.setSize h (i.w.getD (s.rect h).width) (i.h.getD (s.rect h).height)
  else s

/-- A dimension of zero keeps the current one. -/
def resize (s : Screen) (h : Handle) (width height : Int) : Screen :=
  s.setSize h (if width ≠ 0 then width else (s.rect h).width)
    (if height ≠ 0 then height else (s.rect h).height)

end Screen

namespace Session

/-- A horizontal coordinate, when the attribute is written. -/
def across? (s : Session) (e : Element) (name : String) : Option Int :=
  (e.attr? name).map fun v => coordinate v s.config.screen.width

/-- A vertical coordinate, when the attribute is written. -/
def down? (s : Session) (e : Element) (name : String) : Option Int :=
  (e.attr? name).map fun v => coordinate v s.config.screen.height

def across (s : Session) (e : Element) (name : String) (fallback : Int) : Int :=
  (s.across? e name).getD fallback

def down (s : Session) (e : Element) (name : String) (fallback : Int) : Int :=
  (s.down? e name).getD fallback

def writtenPlace (s : Session) (e : Element) : Inline where
  x := s.across? e "x"
  y := s.down? e "y"
  w := s.across? e "w"
  h := s.down? e "h"

/-- An inline color; a dynamic one is the text of its variable, and an empty one is no color. -/
def writtenColor (s : Session) (value : String) : Option Nat :=
  let v := if Template.isDynamic value then s.store.text (Template.boundName value) else value
  if v = "" then none else some (Color.ofAttribute v)

/-- A written text with its placeholders and entities replaced. -/
def shown (s : Session) (text : String) : String := Template.render text s.store

/-- Places a widget like text by `x`, `y`, `align` and `valign`. A written coordinate wins over
the alignment in its axis. -/
def place (s : Session) (h : Handle) (e : Element) : Session :=
  let align := e.attr "align"
  let valign := e.attr "valign"
  let x? := s.across? e "x"
  let y? := s.down? e "y"
  let (hor, ver) := Align.splitPair align
  let ver := if valign = "" then ver else valign
  let aligned := align ≠ "" || valign ≠ ""
  s.mapScreen fun screen =>
    match x?, y? with
    | none, none => if aligned then screen.align h (Align.ofKeywords hor ver) {} else screen
    | none, some y =>
      if aligned then
        let a : Align :=
          if hor = "center" then .topMid else if hor = "right" then .topRight else .topLeft
        screen.align h a ⟨0, y⟩
      else screen.setPos h 0 y
    | some x, none =>
      if aligned && ver = "center" then screen.align h .leftMid ⟨x, 0⟩
      else if aligned && ver = "bottom" then screen.align h .bottomLeft ⟨x, 0⟩
      else screen.setPos h x 0
    | some x, some y => screen.setPos h x y

end Session
end ScreenMarkup
