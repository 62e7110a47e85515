import ScreenMarkup.Text.Search
import ScreenMarkup.Numeric.Leading

/-!
# Geometry

Offsets, sizes and rectangles in whole pixels, the grid of nine positions
inside a parent, and coordinates written in pixels or as a percentage.
-/

set_option autoImplicit false

namespace ScreenMarkup

structure Offset where
  x : Int := 0
  y : Int := 0
deriving DecidableEq, Inhabited

structure Size where
  width : Int := 0
  height : Int := 0
deriving DecidableEq, Inhabited

structure Rect where
  x : Int := 0
  y : Int := 0
  width : Int := 0
  height : Int := 0
deriving DecidableEq, Inhabited

inductive Align where
  | topLeft | topMid | topRight
  | leftMid | center | rightMid
  | bottomLeft | bottomMid | bottomRight
deriving DecidableEq, Inhabited

def Offset.add (a b : Offset) : Offset := ⟨a.x + b.x, a.y + b.y⟩
def Offset.sub (a b : Offset) : Offset := ⟨a.x - b.x, a.y - b.y⟩

instance : Add Offset := ⟨Offset.add⟩
instance : Sub Offset := ⟨Offset.sub⟩

/-- The number of pixels covered, zero for a degenerate size. -/
def Size.area (s : Size) : Nat :=
  if s.width ≤ 0 ∨ s.height ≤ 0 then 0 else (s.width * s.height).toNat

namespace Rect

def origin (r : Rect) : Offset := ⟨r.x, r.y⟩

def size (r : Rect) : Size := ⟨r.width, r.height⟩

/-- The right and bottom edges lie outside. -/
def contains (r : Rect) (p : Offset) : Bool :=
  r.x ≤ p.x && r.y ≤ p.y && p.x < r.x + r.width && p.y < r.y + r.height

end Rect

namespace Align

/-- The position for a horizontal and a vertical keyword; empty means left and top, and a
pair with an unknown keyword is the top left. -/
def ofKeywords (h v : String) : Align :=
  match v, h with
  | "top", "center" => topMid
  | "", "center" => topMid
  | "top", "right" => topRight
  | "", "right" => topRight
  | "center", "left" => leftMid
  | "center", "" => leftMid
  | "center", "center" => center
  | "center", "right" => rightMid
  | "bottom", "left" => bottomLeft
  | "bottom", "" => bottomLeft
  | "bottom", "center" => bottomMid
  | "bottom", "right" => bottomRight
  | _, _ => topLeft

/-- The left edge of a child: at the start, half way (rounded toward zero) or at the end. -/
def horizontal (a : Align) (room : Int) : Int :=
  match a with
  | topLeft | leftMid | bottomLeft => 0
  | topMid | center | bottomMid => room.tdiv 2
  | topRight | rightMid | bottomRight => room

def vertical (a : Align) (room : Int) : Int :=
  match a with
  | topLeft | topMid | topRight => 0
  | leftMid | center | rightMid => room.tdiv 2
  | bottomLeft | bottomMid | bottomRight => room

/-- The corner of a child of size `child` aligned in `parent` and moved by `shift`. -/
def place (a : Align) (parent child : Size) (shift : Offset) : Offset :=
  ⟨a.horizontal (parent.width - child.width) + shift.x,
   a.vertical (parent.height - child.height) + shift.y⟩

/-- The two keywords of an alignment written `h v`; a missing one is `left` or `top`. -/
def splitPair (value : String) : String × String :=
  if value = "" then ("left", "top")
  else
    match Text.cut? [' '] value.toList with
    | some (h, v) => (String.ofList h, String.ofList v)
    | none => (value, "top")

end Align

open Numeric in
/-- A coordinate in pixels, or in percent of `extent`. Half a pixel is added before the
fraction is dropped, so negative values land one pixel nearer to zero. -/
def coordinate (value : String) (extent : Int) : Int :=
  let half := Binary32.ofRatio false 1 2
  match leadingFloat value.toList with
  | (none, _) => 0
  | (some x, '%' :: _) =>
    truncateInt32 (((x.mul (Binary32.ofInt extent)).div (Binary32.ofInt 100)).add half)
  | (some x, _) => truncateInt32 (x.add half)

end ScreenMarkup
