import ScreenMarkup.Screen.Branch
import ScreenMarkup.Screen.Widget

/-!
# The screen

The screen is the tree of all widgets, with a pointer and a clock. Every
operation takes handles. One on a handle that names no widget changes nothing
and a question about it has a neutral answer.
-/

set_option autoImplicit false

namespace ScreenMarkup

/-- A place for widgets: how many have lived in it, and the one that lives there now. -/
structure Slot where
  generation : Nat
  widget : Option Widget
deriving Inhabited

structure Screen where
  slots : Array Slot
  /-- The places that are free, the latest to become free first. -/
  free : List Nat := []
  shape : Branch := Branch.leaf Handle.screen
  pointer : Offset := {}
  clock : Nat := 0
deriving Inhabited

namespace Screen

def new (size : Size) : Screen where
  slots := #[⟨1, some { Widget.new .screen with rect := ⟨0, 0, size.width, size.height⟩ }⟩]

/-! ## Single widgets -/

def widget? (s : Screen) (h : Handle) : Option Widget :=
  match s.slots[h.slot]? with
  | some slot => if slot.generation = h.generation then slot.widget else none
  | none => none

def isLive (s : Screen) (h : Handle) : Bool := (s.widget? h).isSome

def modify (s : Screen) (h : Handle) (f : Widget → Widget) : Screen :=
  match s.widget? h with
  | some w => { s with slots := s.slots.setIfInBounds h.slot ⟨h.generation, some (f w)⟩ }
  | none => s

def kind? (s : Screen) (h : Handle) : Option WidgetKind := (s.widget? h).map (·.kind)

def rect (s : Screen) (h : Handle) : Rect := ((s.widget? h).map (·.rect)).getD {}

def style (s : Screen) (h : Handle) : Style := ((s.widget? h).map (·.style)).getD {}

def isHidden (s : Screen) (h : Handle) : Bool := ((s.widget? h).map (·.hidden)).getD false

def text (s : Screen) (h : Handle) : String := ((s.widget? h).map (·.text)).getD ""

def isChecked (s : Screen) (h : Handle) : Bool := ((s.widget? h).map (·.checked)).getD false

def value (s : Screen) (h : Handle) : Int := ((s.widget? h).map (·.value)).getD 0

def isFocused (s : Screen) (h : Handle) : Bool := ((s.widget? h).map (·.focused)).getD false

def activeTile? (s : Screen) (h : Handle) : Option Handle := (s.widget? h).bind (·.activeTile)

/-! ## The tree -/

def branch? (s : Screen) (h : Handle) : Option Branch := s.shape.find? h

def children (s : Screen) (h : Handle) : List Handle :=
  ((s.branch? h).map fun b => b.children.map (·.handle)).getD []

/-- Everything below a widget in document order. -/
def descendants (s : Screen) (h : Handle) : List Handle :=
  ((s.branch? h).map fun b => Branch.handlesAll b.children).getD []

/-- The widgets that contain a widget, the nearest first. -/
def ancestors (s : Screen) (h : Handle) : List Handle := (s.shape.above? h).getD []

def parent? (s : Screen) (h : Handle) : Option Handle := (s.ancestors h).head?

def child? (s : Screen) (h : Handle) (i : Nat) : Option Handle := (s.children h)[i]?

/-- The position of a widget among its siblings. -/
def index (s : Screen) (h : Handle) : Nat :=
  match s.parent? h with
  | some p => ((s.children p).findIdx? (· = h)).getD 0
  | none => 0

def size (s : Screen) : Nat := (s.slots.toList.filter fun slot => slot.widget.isSome).length

def findKind? (s : Screen) (kind : WidgetKind) : Option Handle :=
  (s.descendants Handle.screen).find? fun h => s.kind? h = some kind

/-- Takes the place that became free last, or a new one. -/
def allocate (s : Screen) (w : Widget) : Handle × Screen :=
  match s.free with
  | [] => (⟨s.slots.size, 1⟩, { s with slots := s.slots.push ⟨1, some w⟩ })
  | i :: free =>
    let generation := ((s.slots[i]?.map (·.generation)).getD 0) + 1
    (⟨i, generation⟩,
      { s with free := free, slots := s.slots.setIfInBounds i ⟨generation, some w⟩ })

/-- A new widget, the last child of its parent, or of the screen when the parent names none. -/
def create (s : Screen) (kind : WidgetKind) (parent : Handle) : Handle × Screen :=
  let p := if s.isLive parent then parent else Handle.screen
  let (h, s) := s.allocate (Widget.new kind)
  (h, { s with shape := s.shape.modify p (· ++ [Branch.leaf h]) })

def release (s : Screen) (h : Handle) : Screen :=
  { s with
    slots := s.slots.setIfInBounds h.slot ⟨h.generation, none⟩
    free := h.slot :: s.free }

/-- Removes a widget and all below it, level by level. The screen itself stays. -/
def delete (s : Screen) (h : Handle) : Screen :=
  if h = Handle.screen then s
  else
    match s.branch? h with
    | none => s
    | some b => { b.levels.foldl release s with shape := s.shape.remove h }

/-- Removes everything below a widget. -/
def clean (s : Screen) (h : Handle) : Screen := (s.children h).foldl delete s

/-- Moves a widget to a position among its siblings, or to the last one. -/
def moveTo (s : Screen) (h : Handle) (position : Nat) : Screen :=
  match s.parent? h with
  | some p => { s with shape := s.shape.modify p (Branch.relocate h position) }
  | none => s

/-- Moves a widget on top of its siblings. -/
def raise (s : Screen) (h : Handle) : Screen :=
  match s.parent? h with
  | some p => { s with shape := s.shape.modify p fun bs => Branch.relocate h bs.length bs }
  | none => s

/-! ## Geometry -/

/-- The size of what contains a widget. -/
def parentSize? (s : Screen) (h : Handle) : Option Size :=
  (s.parent? h).map fun p => (s.rect p).size

def setPos (s : Screen) (h : Handle) (x y : Int) : Screen := s.modify h (·.setPos x y)

def setSize (s : Screen) (h : Handle) (width height : Int) : Screen :=
  s.modify h (·.setSize (s.parentSize? h) width height)

def align (s : Screen) (h : Handle) (a : Align) (shift : Offset) : Screen :=
  s.modify h (·.align (s.parentSize? h) a shift)

/-- The place of a widget in screen coordinates. -/
def screenRect (s : Screen) (h : Handle) : Rect :=
  (s.ancestors h).foldl
    (fun r a => { r with x := r.x + (s.rect a).x, y := r.y + (s.rect a).y }) (s.rect h)

/-- Neither the widget nor one that contains it is hidden. -/
def isVisible (s : Screen) (h : Handle) : Bool :=
  (h :: s.ancestors h).all fun w => s.isLive w && !s.isHidden w

/-! ## Changes -/

def setHidden (s : Screen) (h : Handle) (b : Bool) : Screen := s.modify h ({ · with hidden := b })

def applyStyle (s : Screen) (h : Handle) (p : StyleChange) : Screen := s.modify h (·.applyStyle p)

def applyStyles (s : Screen) (h : Handle) (ps : List StyleChange) : Screen :=
  ps.foldl (·.applyStyle h ·) s

/-- An opaque background. -/
def setBackground (s : Screen) (h : Handle) (c : Nat) : Screen :=
  s.applyStyles h [.bgColor c, .bgOpacity Style.cover]

def clearStyle (s : Screen) (h : Handle) : Screen := s.modify h ({ · with style := {} })

def setText (s : Screen) (h : Handle) (t : String) : Screen := s.modify h ({ · with text := t })

def setChecked (s : Screen) (h : Handle) (b : Bool) : Screen := s.modify h ({ · with checked := b })

def setRange (s : Screen) (h : Handle) (low high : Int) : Screen := s.modify h (·.setRange low high)

def setValue (s : Screen) (h : Handle) (v : Int) : Screen := s.modify h (·.setValue v)

def setSpans (s : Screen) (h : Handle) (spans : List Span) : Screen := s.modify h (·.setSpans spans)

def configure (s : Screen) (h : Handle) (setting : Setting) : Screen :=
  s.modify h (·.configure setting)

/-- The pixels of a canvas changed. -/
def invalidate (s : Screen) (h : Handle) : Screen :=
  s.modify h fun w => { w with invalidations := w.invalidations + 1 }

def setActiveTile (s : Screen) (view tile : Handle) : Screen :=
  s.modify view ({ · with activeTile := some tile })

def setFocused (s : Screen) (h : Handle) (b : Bool) : Screen := s.modify h ({ · with focused := b })

def setPointer (s : Screen) (p : Offset) : Screen := { s with pointer := p }

def advance (s : Screen) (ms : Nat) : Screen := { s with clock := s.clock + ms }

end Screen
end ScreenMarkup
