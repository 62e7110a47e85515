import ScreenMarkup.Session.Build.Registration

/-!
# Switches, sliders, text areas, images and canvases

The widgets that are bound to a variable, and those that show pixels.
-/

set_option autoImplicit false

namespace ScreenMarkup.Session

def flag (e : Element) (name : String) : Bool := readBool (e.attr name)

/-- The text of a bound variable, empty without one. -/
def boundText (s : Session) (bind : String) : String := if bind = "" then "" else s.store.text bind

/-- An element whose value is bound needs an id, and so does one that reports changes. -/
def withBoundId (s : Session) (e : Element) (kind : ControlKind) : WidgetAttrs × Session :=
  s.withId (WidgetAttrs.ofElement e) kind (e.attr "bind" ≠ "" || e.attr "onchange" ≠ "")

/-- The control of a widget that is bound to a variable. -/
def boundControl (a : WidgetAttrs) (kind : ControlKind) (h : Handle) (e : Element) : Control :=
  { a.control kind h with
    bind := Control.nonempty? (e.attr "bind")
    actions := { onchange := e.attr "onchange" } }

def buildSwitch (s : Session) (e : Element) (parent : Handle) : Session :=
  let (a, s) := s.withBoundId e .switch
  let checked := readBool (s.boundText (e.attr "bind"))
  let (h, s) := s.create .switch parent
  let s := (s.mapScreen (·.setChecked h checked)).applyRules h .switch a
  let i := s.writtenPlace e
  let s := (s.mapScreen (·.applyInline h h i)).hideForGood h a
  s.registerWith (boundControl a .switch h e) h [.valueChanged] .switch

def sliderWidth : Int := 150
def sliderLow : Int := 0
def sliderHigh : Int := 100

def buildSlider (s : Session) (e : Element) (parent : Handle) : Session :=
  let (a, s) := s.withBoundId e .slider
  let low := e.attrInt "min" sliderLow
  let high := e.attrInt "max" sliderHigh
  let initial := Numeric.leadingInt (s.boundText (e.attr "bind")).toList
  let (h, s) := s.create .slider parent
  let s := s.mapScreen fun screen =>
    ((screen.setRange h low high).setValue h initial).resize h sliderWidth 0
  let s := s.applyRules h .slider a
  let i := s.writtenPlace e
  let s := (s.mapScreen (·.applyInline h h i)).hideForGood h a
  s.registerWith (boundControl a .slider h e) h [.valueChanged, .released] .slider

def inputWidth : Int := 150
def inputHeight : Int := 40

def buildInput (s : Session) (e : Element) (parent : Handle) : Session :=
  let (a, s) := s.withBoundId e .input
  let initial := s.boundText (e.attr "bind")
  let (h, s) := s.create .textArea parent
  let s := s.mapScreen fun screen =>
    let screen := (screen.configure h (.placeholder (e.attr "placeholder"))).setText h initial
    let screen := screen.configure h (.password (flag e "password"))
    let screen := screen.configure h (.oneLine (!flag e "multiline"))
    (screen.applyStyle h (.bgOpacity 0)).setSize h inputWidth inputHeight
  let s := s.applyRules h .input a
  let i : Inline :=
    { s.writtenPlace e with
      color := s.writtenColor (e.attr "color")
      bgcolor := s.writtenColor (e.attr "bgcolor") }
  let s := (s.mapScreen (·.applyInline h h i)).hideForGood h a
  s.registerWith (boundControl a .input h e) h [.valueChanged, .focused, .defocused] .input

/-- An image is sized only when both dimensions are positive. -/
def imageSize (i : Inline) : Option Int × Option Int :=
  match i.w, i.h with
  | some w, some h => if 0 < w ∧ 0 < h then (some w, some h) else (none, none)
  | _, _ => (none, none)

def buildImage (s : Session) (e : Element) (parent : Handle) : Session :=
  let a := WidgetAttrs.ofElement e
  let onclick := e.attr "onclick"
  let (h, s) := s.create .image parent
  let path := s.resourcePath (e.attr "src")
  let s := (s.mapScreen (·.configure h (.imageSource path))).applyRules h .image a
  let geometry := s.writtenPlace e
  let isCentered := e.attr "align" = "center"
  let i : Inline :=
    { x := if isCentered then none else geometry.x
      y := if isCentered then none else geometry.y
      w := (imageSize geometry).1
      h := (imageSize geometry).2 }
  let s := s.mapScreen (·.applyInline h h i)
  let y := s.down e "y" 0
  let s := if isCentered then s.mapScreen (·.align h .topMid ⟨0, y⟩) else s
  let s := s.hideForGood h a
  if onclick = "" then
    let (a, s) := s.withId a .image false
    (s.register (a.control .image h)).2
  else
    let s := s.mapScreen (·.configure h (.clickable true))
    let (a, s) := s.withId a .image true
    let c := { a.control .image h with actions := { onclick := onclick } }
    s.registerWith c h [.clicked] .click

def canvasBackground : Nat := 0xFFFFFF

/-- A canvas that cannot be made is left out. -/
def buildCanvas (s : Session) (e : Element) (parent : Handle) : Session :=
  let actions : Actions :=
    { ondraw := e.attr "ondraw", ontap := e.attr "ontap", onhold := e.attr "onhold" }
  let w := s.across e "w" Canvas.defaultSide
  let n := s.down e "h" Canvas.defaultSide
  let x := s.across e "x" 0
  let y := s.down e "y" 0
  let background :=
    if e.attr "bgcolor" = "" then canvasBackground else Color.ofAttribute (e.attr "bgcolor")
  let (a, s) := s.withId (WidgetAttrs.ofElement e) .canvas true
  let (h, s) := s.create .canvas parent
  let s := s.mapScreen fun screen => (screen.setPos h x y).setSize h w n
  match Canvas.make w n background s.config.maxCanvasBytes with
  | .error _ => s.mapScreen (·.delete h)
  | .ok canvas =>
    let s := (s.mapScreen (·.invalidate h)).hideForGood h a
    let isTouched := actions.ondraw ≠ "" || actions.ontap ≠ "" || actions.onhold ≠ ""
    let c :=
      { a.control .canvas h with
        classTemplate := none, actions := actions, canvas := some canvas }
    if isTouched then
      (s.mapScreen (·.configure h (.clickable true))).registerWith c h
        [.pressed, .pressing, .clicked, .longPressed] .canvas
    else (s.register c).2

end ScreenMarkup.Session
