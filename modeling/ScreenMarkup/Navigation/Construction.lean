import ScreenMarkup.Navigation.Basic
import ScreenMarkup.Screen.Cascade

/-!
# Building pages and groups

A page fills the screen. The tiles of a group stand side by side in a view
that fills the screen too, and a row of dots may show which one is active.
-/

set_option autoImplicit false

namespace ScreenMarkup.Navigation

def dotSize : Int := 8
def dotCell : Int := 16
def dotThickness : Int := 12
def dotMargin : Int := 15
def dotSpacing : Int := 8
/-- A radius that makes any widget round. -/
def roundRadius : Int := 0x7FFF

def addPage (n : Navigation) (s : Screen) (id : String) (size : Size) :
    Handle × Navigation × Screen :=
  let (h, s) := s.create .page Handle.screen
  let s := (s.setSize h size.width size.height).setPos h 0 0
  let s := s.applyStyles h ([.bgOpacity 0, .borderWidth 0] ++ allSides.map (.padding · 0))
  (h, { n with pages := n.pages ++ [⟨id, h⟩] }, s)

def addGroup (n : Navigation) (s : Screen) (id defaultPage : String) (orientation : Orientation)
    (indicator : Indicator) (size : Size) : Nat × Navigation × Screen :=
  let (h, s) := s.create .tileView Handle.screen
  let s := (s.setSize h size.width size.height).setPos h 0 0
  let s := s.applyStyle h (.bgOpacity 0)
  let s := s.configure h (.vertical (orientation = .vertical))
  let s := s.configure h (.scrollbar (indicator = .scrollbar))
  let g : PageGroup :=
    { id := id, defaultPage := defaultPage, orientation := orientation, indicator := indicator,
      view := h }
  (n.groups.length, { n with groups := n.groups ++ [g] }, s)

/-- A tile for the next page of a group. The first one is active. -/
def addTile? (n : Navigation) (s : Screen) (gi : Nat) (page : String) (size : Size) :
    Option (Handle × Navigation × Screen) :=
  n.groups[gi]?.map fun g =>
    let place : Int := g.pages.length
    let (h, s) := s.create .tile g.view
    let s := s.setSize h size.width size.height
    let s := match g.orientation with
      | .horizontal => s.setPos h (place * size.width) 0
      | .vertical => s.setPos h 0 (place * size.height)
    let s := s.applyStyle h (.bgOpacity 0)
    let s := if g.pages.isEmpty then s.setActiveTile g.view h else s
    (h, n.modifyGroup gi fun g => { g with pages := g.pages ++ [⟨page, h⟩] }, s)

/-- One dot of a row, at a position along it. -/
def addDot (horizontal : Bool) (row : Handle) (s : Screen) (i : Nat) : Screen :=
  let (h, s) := s.create .dot row
  let s := s.setSize h dotSize dotSize
  let along := i * dotCell + (dotCell - dotSize) / 2
  let across := (dotThickness - dotSize) / 2
  let s := if horizontal then s.setPos h along across else s.setPos h across along
  s.applyStyles h
    [.radius roundRadius, .borderWidth 0, .bgOpacity Style.cover, .bgColor (PageGroup.dotColor i 0)]

/-- Adds the dots to a group whose tiles are complete, if it has dots and more than one page. -/
def finishGroup (n : Navigation) (s : Screen) (gi : Nat) : Navigation × Screen :=
  match n.groups[gi]? with
  | none => (n, s)
  | some g =>
    if g.indicator ≠ .dots ∨ g.pages.length ≤ 1 then (n, s)
    else
      let count := g.pages.length
      let (row, s) := s.create .indicator Handle.screen
      let s := s.applyStyles row [.bgOpacity 0, .borderWidth 0]
      let horizontal := g.orientation = .horizontal
      let s :=
        if horizontal then
          (s.setSize row (count * dotCell) dotThickness).align row .bottomMid ⟨0, -dotMargin⟩
        else
          (s.setSize row dotThickness (count * dotCell)).align row .rightMid ⟨-dotSpacing, 0⟩
      let s := s.raise row
      let s := (List.range count).foldl (addDot horizontal row) s
      (n.modifyGroup gi ({ · with dots := some row }), s)

end ScreenMarkup.Navigation
