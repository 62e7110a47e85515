import ScreenMarkup.Screen.Basic

/-!
# The widget tree as links

The same screen without a tree: the places of the widgets, and beside them two
tables of links. One has the children of each widget, the other its parent, and
nothing but the operations keeps them in step. What goes along the links goes
on for as long as there are any: without an end it gives no result.
-/

set_option autoImplicit false

namespace ScreenMarkup

structure Arena where
  slots : Array Slot
  free : List Nat := []
  children : Handle → Option (List Handle)
  parent : Handle → Option Handle
  pointer : Offset := {}
  clock : Nat := 0

namespace Arena

/-- A table with another entry for one handle, or without one. -/
def assign {α : Type} (table : Handle → Option α) (h : Handle) (entry : Option α) :
    Handle → Option α :=
  fun k => if k = h then entry else table k

/-- The widgets apart from the links between them: a screen whose tree is not filled in. -/
def nodes (a : Arena) : Screen where
  slots := a.slots
  free := a.free
  pointer := a.pointer
  clock := a.clock

def withNodes (a : Arena) (s : Screen) : Arena :=
  { a with slots := s.slots, free := s.free, pointer := s.pointer, clock := s.clock }

def new (size : Size) : Arena where
  slots := (Screen.new size).slots
  children := assign (fun _ => none) Handle.screen (some [])
  parent _ := none

/-- The links of a tree. -/
def ofScreen (s : Screen) : Arena where
  slots := s.slots
  free := s.free
  children h := if s.isLive h then some (s.children h) else none
  parent := s.parent?
  pointer := s.pointer
  clock := s.clock

def isLive (a : Arena) (h : Handle) : Bool := a.nodes.isLive h

def kind? (a : Arena) (h : Handle) : Option WidgetKind := a.nodes.kind? h

def childList (a : Arena) (h : Handle) : List Handle := (a.children h).getD []

def parentSize? (a : Arena) (h : Handle) : Option Size :=
  (a.parent h).map fun p => (a.nodes.rect p).size

/-! ## Operations -/

def modify (a : Arena) (h : Handle) (f : Widget → Widget) : Arena :=
  a.withNodes (a.nodes.modify h f)

/-- A new widget, the last child of its parent, or of the screen when the parent names none. -/
def create (a : Arena) (kind : WidgetKind) (parent : Handle) : Handle × Arena :=
  let p := if a.isLive parent then parent else Handle.screen
  let (h, nodes) := a.nodes.allocate (Widget.new kind)
  let children := assign a.children h (some [])
  (h, { a.withNodes nodes with
    children := assign children p ((children p).map (· ++ [h]))
    parent := assign a.parent h (some p) })

/-- Changes the list in which a widget stands with its siblings. -/
def arrange (a : Arena) (h : Handle) (f : List Handle → List Handle) : Arena :=
  match a.parent h with
  | some p => { a with children := assign a.children p ((a.children p).map f) }
  | none => a

def moveTo (a : Arena) (h : Handle) (position : Nat) : Arena :=
  a.arrange h fun siblings =>
    let others := siblings.filter (· ≠ h)
    others.take position ++ h :: others.drop position

def raise (a : Arena) (h : Handle) : Arena :=
  a.arrange h fun siblings => siblings.filter (· ≠ h) ++ [h]

/-- Takes a widget away from its parent. -/
def unlink (a : Arena) (h : Handle) : Arena :=
  { a.arrange h (·.filter (· ≠ h)) with parent := assign a.parent h none }

/-- Removes one widget with the links that start at it. -/
def drop (a : Arena) (h : Handle) : Arena :=
  let nodes := if a.isLive h then a.nodes.release h else a.nodes
  { a.withNodes nodes with
    children := assign a.children h none, parent := assign a.parent h none }

/-- Removes what stands in a queue, which takes on the children of everything removed. -/
def drain? (a : Arena) : List Handle → Option Arena
  | [] => some a
  | h :: queue => a.drop h |>.drain? (queue ++ a.childList h)
partial_fixpoint

def delete? (a : Arena) (h : Handle) : Option Arena :=
  if a.isLive h = false ∨ h = Handle.screen then some a else (a.unlink h).drain? [h]

def clean? (a : Arena) (h : Handle) : Option Arena := (a.childList h).foldlM delete? a

/-! ## Walking -/

/-- Gives the top of a stack, its last member, and puts the children of it on the stack, the first
of them on top; and so on until the stack is empty. -/
def walk? (a : Arena) (stack out : List Handle) : Option (List Handle) :=
  match stack.getLast? with
  | some h => a |>.walk? (stack.dropLast ++ (a.childList h).reverse) (out ++ [h])
  | none => some out
partial_fixpoint

def descendants? (a : Arena) (h : Handle) : Option (List Handle) :=
  a.walk? (a.childList h).reverse []

/-- The first widget of a kind on the screen. -/
def findKind? (a : Arena) (kind : WidgetKind) : Option (Option Handle) :=
  (a.descendants? Handle.screen).map (·.find? fun h => a.kind? h = some kind)

end Arena
end ScreenMarkup
