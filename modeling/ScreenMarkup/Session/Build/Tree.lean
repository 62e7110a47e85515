import ScreenMarkup.Session.Build.Input
import ScreenMarkup.Session.Build.Text

/-!
# Building content

The widgets of a container are built in document order. Only tabs contain
widgets themselves. Nested pages, stray tabs and unknown tags are left out
with everything in them.
-/

set_option autoImplicit false

namespace ScreenMarkup.Session

def tabBarHeight : Int := 32

/-- The view of a set of tabs, without the tabs. -/
def createTabView (s : Session) (e : Element) (parent : Handle) : Handle × Session :=
  let x := s.across e "x" 0
  let y := s.down e "y" 0
  let w := s.across e "w" 0
  let n := s.down e "h" 0
  let (h, s) := s.create .tabView parent
  (h, s.mapScreen fun screen =>
    let screen := screen.configure h (.tabBarHeight (e.attrInt "barh" tabBarHeight))
    let screen := if x ≠ 0 ∨ y ≠ 0 then screen.setPos h x y else screen
    let screen :=
      if 0 < w ∨ 0 < n then screen.resize h (max w 0) (max n 0) else screen
    let background := if e.attr "bgcolor" = "" then 0 else Color.ofAttribute (e.attr "bgcolor")
    let screen := screen.setBackground h background
    if e.attr "color" = "" then screen
    else screen.applyStyle h (.textColor (Color.ofAttribute (e.attr "color"))))

def createTab (s : Session) (tab : Element) (view : Handle) : Handle × Session :=
  let title := if tab.attr "title" = "" then "Tab" else tab.attr "title"
  let (h, s) := s.create .tab view
  (h, s.mapScreen fun screen =>
    (screen.setText h title).applyStyles h
      ([.bgOpacity 0, .borderWidth 0] ++ allSides.map (.padding · 0)))

/-- Registers a set of tabs when its tabs are built. -/
def finishTabs (s : Session) (e : Element) (view : Handle) : Session :=
  let a := WidgetAttrs.ofElement e
  ((s.hideForGood view a).register { a.control .tabs view with classTemplate := none }).2

/-- Builds a widget that contains no others. -/
def buildLeaf (s : Session) (kind : ControlKind) (e : Element) (parent : Handle) : Session :=
  match kind with
  | .label => s.buildLabel e parent
  | .button => s.buildButton e parent
  | .switch => s.buildSwitch e parent
  | .slider => s.buildSlider e parent
  | .input => s.buildInput e parent
  | .canvas => s.buildCanvas e parent
  | .image => s.buildImage e parent
  | .markdown => s.buildMarkdown e parent
  | .tabs => s
  | .page => s

mutual
def buildWidget (parent : Handle) (e : Element) (s : Session) : Session :=
  match e with
  | ⟨tag, attrs, text, children, inner⟩ =>
    let e : Element := ⟨tag, attrs, text, children, inner⟩
    match ControlKind.ofTag? tag with
    | none => s
    | some .tabs =>
      let (view, s) := s.createTabView e parent
      (buildTabs view children s).finishTabs e view
    | some kind => s.buildLeaf kind e parent
/-- Builds the widgets among some elements. -/
def buildAll (parent : Handle) (es : List Element) (s : Session) : Session :=
  match es with
  | [] => s
  | e :: es => buildAll parent es (buildWidget parent e s)
/-- Builds the tabs among some elements, each with its widgets. -/
def buildTabs (view : Handle) (es : List Element) (s : Session) : Session :=
  match es with
  | [] => s
  | ⟨tag, attrs, text, children, inner⟩ :: es =>
    if tag = "tab" then
      let (h, s) := s.createTab ⟨tag, attrs, text, children, inner⟩ view
      buildTabs view es (buildAll h children s)
    else buildTabs view es s
end

end ScreenMarkup.Session
