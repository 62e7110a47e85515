import ScreenMarkup.Content.Markdown
import ScreenMarkup.Geometry
import ScreenMarkup.Screen.Branch

/-!
# Widgets

What the screen remembers about one widget: its kind, its place relative to
its parent, its style, its content, and its state of interaction.
-/

set_option autoImplicit false

namespace ScreenMarkup

inductive WidgetKind where
  | screen | page | tileView | tile | indicator | dot
  | label | button | switch | slider | textArea | keyboard
  | canvas | image | spanGroup | tabView | tab
deriving DecidableEq, Inhabited

def WidgetKind.name : WidgetKind → String
  | screen => "Screen"
  | page => "Page"
  | tileView => "TileView"
  | tile => "Tile"
  | indicator => "Indicator"
  | dot => "Dot"
  | label => "Label"
  | button => "Button"
  | switch => "Switch"
  | slider => "Slider"
  | textArea => "TextArea"
  | keyboard => "Keyboard"
  | canvas => "Canvas"
  | image => "Image"
  | spanGroup => "SpanGroup"
  | tabView => "TabView"
  | tab => "Tab"

def WidgetKind.all : List WidgetKind :=
  [screen, page, tileView, tile, indicator, dot, label, button, switch, slider, textArea, keyboard,
   canvas, image, spanGroup, tabView, tab]

/-- These kinds react to clicks from the start. -/
def WidgetKind.isClickable : WidgetKind → Bool
  | button | switch | slider => true
  | _ => false

structure Widget where
  kind : WidgetKind
  rect : Rect := {}
  /-- The alignment that places the widget again whenever its size changes. -/
  aligned : Option (Align × Offset) := none
  hidden : Bool := false
  style : Style := {}
  text : String := ""
  checked : Bool := false
  value : Int := 0
  low : Int := 0
  high : Int := 100
  placeholder : String := ""
  password : Bool := false
  oneLine : Bool := false
  longMode : LongMode := .wrap
  imageSource : String := ""
  clickable : Bool := false
  focused : Bool := false
  keyboardTarget : Option Handle := none
  tabBarHeight : Int := 0
  vertical : Bool := false
  scrollbar : Bool := true
  spans : List Span := []
  activeTile : Option Handle := none
  invalidations : Nat := 0
deriving DecidableEq, Inhabited

inductive Setting where
  | longMode (m : LongMode)
  | placeholder (s : String)
  | password (b : Bool)
  | oneLine (b : Bool)
  | imageSource (s : String)
  | clickable (b : Bool)
  | keyboardTarget (h : Option Handle)
  | tabBarHeight (n : Int)
  | vertical (b : Bool)
  | scrollbar (b : Bool)
deriving DecidableEq, Inhabited

namespace Widget

def new (kind : WidgetKind) : Widget := { kind := kind, clickable := kind.isClickable }

def setPos (w : Widget) (x y : Int) : Widget :=
  { w with rect := { w.rect with x := x, y := y }, aligned := none }

/-- Aligns a widget again inside a parent of the given size, or inside itself. -/
def realign (w : Widget) (parent : Option Size) : Widget :=
  match w.aligned with
  | none => w
  | some (a, shift) =>
    let p := a.place (parent.getD w.rect.size) w.rect.size shift
    { w with rect := { w.rect with x := p.x, y := p.y } }

def setSize (w : Widget) (parent : Option Size) (width height : Int) : Widget :=
  { w with rect := { w.rect with width := width, height := height } }.realign parent

def align (w : Widget) (parent : Option Size) (a : Align) (shift : Offset) : Widget :=
  { w with aligned := some (a, shift) }.realign parent

/-- The value within the range; an inverted range holds its lower end only. -/
def clampValue (low high value : Int) : Int := max low (min (max high low) value)

def setRange (w : Widget) (low high : Int) : Widget :=
  { w with low := low, high := high, value := clampValue low high w.value }

def setValue (w : Widget) (value : Int) : Widget :=
  { w with value := clampValue w.low w.high value }

def applyStyle (w : Widget) (p : StyleChange) : Widget := { w with style := w.style.apply p }

/-- The text of a rich text is the text of its spans. -/
def setSpans (w : Widget) (spans : List Span) : Widget :=
  { w with spans := spans, text := String.join (spans.map (·.text)) }

def configure (w : Widget) : Setting → Widget
  | .longMode m => { w with longMode := m }
  | .placeholder s => { w with placeholder := s }
  | .password b => { w with password := b }
  | .oneLine b => { w with oneLine := b }
  | .imageSource s => { w with imageSource := s }
  | .clickable b => { w with clickable := b }
  | .keyboardTarget h => { w with keyboardTarget := h }
  | .tabBarHeight n => { w with tabBarHeight := n }
  | .vertical b => { w with vertical := b }
  | .scrollbar b => { w with scrollbar := b }

end Widget
end ScreenMarkup
