import ScreenMarkup.Proofs.Screen.Carry
import ScreenMarkup.Proofs.Session.GrowthBuilding

/-!
# Where elements stand

The builders tell nothing of the widgets they make. `placed` walks through a
document as they do and lists each element that gets a widget, with the widget
around it and the widget of its text. A placement stands on a screen when these
widgets are there, painted by the inline attributes of the element, and no
control but that of the element has them.
-/

set_option autoImplicit false

namespace ScreenMarkup

/-- What an element of the kind is built as. -/
def ControlKind.widget : ControlKind → WidgetKind
  | label => .label
  | button => .button
  | switch => .switch
  | slider => .slider
  | input => .textArea
  | canvas => .canvas
  | image => .image
  | markdown => .spanGroup
  | tabs => .tabView
  | page => .page

/-- The kinds whose looks rules and inline attributes decide. -/
def ControlKind.isStyled : ControlKind → Bool
  | label | button | switch | slider | input | markdown => true
  | _ => false

/-- The kinds whose bound colors are refreshed. -/
def ControlKind.bindsColors : ControlKind → Bool
  | label | button => true
  | _ => false

/-- An element and its widgets. -/
structure Placed where
  kind : ControlKind
  element : Element
  /-- The widget of the element itself, which has its background and its radius. -/
  outer : Handle
  /-- The widget that has its text color and its font: of a button with a text the label inside,
  of all others the widget itself. -/
  inner : Handle

namespace Placed

variable (p : Placed)

def label : ButtonLabel := ButtonLabel.ofElement p.element

/-- A button without a text shows an icon or nothing. -/
def showsText : Bool := p.kind ≠ .button || p.label.text ≠ ""

/-! The attributes that the builder of each kind honours. -/

def color : String :=
  match p.kind with
  | .label | .input => p.element.attr "color"
  | .button => if p.element.attr "color" = "" then p.label.color else p.element.attr "color"
  | _ => ""

def bgcolor : String :=
  match p.kind with
  | .label | .button | .input | .markdown => p.element.attr "bgcolor"
  | _ => ""

def font : Int :=
  match p.kind with
  | .label => p.element.attrInt "font" 0
  | .button => if p.element.attrInt "font" 0 = 0 then p.label.font else p.element.attrInt "font" 0
  | _ => 0

def radius : Int :=
  match p.kind with
  | .label | .button => p.element.attrInt "radius" 0
  | _ => 0

def classes : String := p.element.attr "class"

/-- The paint that the attributes ask for. -/
def inline (s : Session) : Inline where
  color := if p.showsText then s.writtenColor p.color else none
  bgcolor := s.writtenColor p.bgcolor
  font := if p.showsText then positive? p.font else none
  radius := positive? p.radius

/-- The element has classes or colors that its control has to follow. -/
def isBound : Bool :=
  Template.isDynamic p.classes ||
    p.kind.bindsColors && (Template.isDynamic p.color || Template.isDynamic p.bgcolor)

end Placed

/-- The variable of a color that is bound, for a kind that binds colors. -/
def ControlKind.colorBind (kind : ControlKind) (color : String) : Option String :=
  if kind.bindsColors && Template.isDynamic color then Control.bound? color else none

/-- The control is that of the element. -/
structure Control.Serves (c : Control) (p : Placed) : Prop where
  kind : c.kind = p.kind
  target : c.target = p.outer
  obj : p.showsText = true → c.obj = p.inner
  outer : c.outer.isSome = true ↔ p.kind = .button
  classes : c.classTemplate = Control.dynamic? p.classes
  color : c.colorBind = p.kind.colorBind p.color
  bgcolor : c.bgcolorBind = p.kind.colorBind p.bgcolor

theorem Control.Serves.rewire {c d : Control} {p : Placed} (hc : c.Serves p)
    (hw : d.wiring = c.wiring) : d.Serves p := by
  rw [Control.wiring_eq hw]
  exact ⟨hc.kind, hc.target, hc.obj, hc.outer, hc.classes, hc.color, hc.bgcolor⟩

theorem Control.owns_rewire {c d : Control} {h : Handle} (hw : d.wiring = c.wiring) :
    d.Owns h ↔ c.Owns h := by
  rw [Control.wiring_eq hw]
  rfl

namespace Session

variable {s t u : Session} {h parent : Handle} {p : Placed}

/-! ## Listing the elements -/

/-- The placement of an element that is built next. -/
def placeOf (s : Session) (kind : ControlKind) (e : Element) (parent : Handle) : Placed :=
  let (h, s) := s.create kind.widget parent
  let label := ButtonLabel.ofElement e
  { kind := kind
    element := e
    outer := h
    inner := if kind = .button ∧ label.text ≠ "" then (s.create .label h).1 else h }

mutual
def placedIn (parent : Handle) (e : Element) (s : Session) : List Placed :=
  match e with
  | ⟨tag, attrs, text, children, inner⟩ =>
    let e : Element := ⟨tag, attrs, text, children, inner⟩
    match ControlKind.ofTag? tag with
    | none => []
    | some .tabs =>
      let (view, s) := s.createTabView e parent
      placedInTabs view children s
    | some kind => [s.placeOf kind e parent]
/-- The elements that are built of some elements. -/
def placedInAll (parent : Handle) (es : List Element) (s : Session) : List Placed :=
  match es with
  | [] => []
  | e :: es => placedIn parent e s ++ placedInAll parent es (buildWidget parent e s)
/-- The elements that are built of the tabs among some elements. -/
def placedInTabs (view : Handle) (es : List Element) (s : Session) : List Placed :=
  match es with
  | [] => []
  | ⟨tag, attrs, text, children, inner⟩ :: es =>
    if tag = "tab" then
      let (h, s) := s.createTab ⟨tag, attrs, text, children, inner⟩ view
      placedInAll h children s ++ placedInTabs view es (buildAll h children s)
    else placedInTabs view es s
end

/-- The pages of a document with what is to be built on them. -/
def layOut (s : Session) (markup : String) : Session × List Content :=
  let doc := Markup.parse markup
  let app := (doc.find? "app").getD doc
  let (head, store, sheet) := Head.read app s.store {} s.config.iconDir
  let s := { s with head := head, store := store, sheet := sheet }
  let layout := Layout.ofElements doc.children
  let (s, tiles) := collect renderGroup layout.groups s
  let (s, pages) := collect renderPage layout.pages s
  (s,
    if s.nav.pages.isEmpty && s.nav.groups.isEmpty then
      [⟨(app.find? "ui").getD app, Handle.screen⟩]
    else tiles ++ pages)

theorem LayingOut.layOut {G : Session → Session → Prop} (hG : LayingOut G) (s : Session)
    (markup : String) : G s (s.layOut markup).1 := by
  unfold Session.layOut
  extract_lets doc app layout
  split
  next head store sheet _ =>
  extract_lets s₀
  have hgroups := hG.collect hG.renderGroup layout.groups s₀
  split
  next s₁ tiles hg =>
  have hpages := hG.collect hG.renderPage layout.pages s₁
  split
  next s₂ pages hp =>
  rw [hg] at hgroups
  rw [hp] at hpages
  exact hG.trans (hG.trans (hG.readHead s head store sheet) hgroups) hpages

def buildContents (contents : List Content) (s : Session) : Session :=
  contents.foldl (fun s c => buildAll c.parent c.element.children s) s

/-- A document is laid out, its content is built, and then it is stacked. -/
theorem prepare_eq (s : Session) (markup : String) :
    s.prepare markup =
      let u := buildContents (s.layOut markup).2 (s.layOut markup).1
      { u with screen := u.screen.stack u.controls, pendingZ := [] } := rfl

def placedAmong (contents : List Content) (s : Session) : List Placed :=
  match contents with
  | [] => []
  | c :: cs =>
    placedInAll c.parent c.element.children s ++
      placedAmong cs (buildAll c.parent c.element.children s)

/-- The elements of a document with the widgets that a rendering makes for them. -/
def placed (s : Session) (markup : String) : List Placed :=
  placedAmong (s.layOut markup).2 (s.layOut markup).1

end Session
end ScreenMarkup
