import ScreenMarkup.Geometry
import ScreenMarkup.Style.Basic
import ScreenMarkup.Style.Color

/-!
# Declarations

A property with a known name declares something about its widget. Percentages
are resolved against the screen.
-/

set_option autoImplicit false

namespace ScreenMarkup

inductive Declaration where
  | textColor (c : Nat)
  | background (c : Nat)
  | font (f : Font)
  | radius (r : Int)
  | zIndex (z : Int)
  | width (w : Int)
  | height (h : Int)
  | left (x : Int)
  | top (y : Int)
  /-- Without a side it holds for all four. -/
  | padding (side : Option Side) (p : Int)
  | opacity (o : Nat)
  | textAlign (h : TextAlign) (v : Option String)
  | textValign (v : String)
deriving DecidableEq, Inhabited

namespace Declaration
open Numeric Text

/-- The digits and minus signs up to the first other character, blanks skipped. -/
def sizeDigits : List Char → List Char
  | [] => []
  | c :: s =>
    if c.isDigit ∨ c = '-' then c :: sizeDigits s
    else if c = ' ' then sizeDigits s
    else []

/-- A size such as `12`, `12px` or `-4`. -/
def size (value : String) : Int := leadingInt (sizeDigits value.toList)

/-- An opacity from 0 to 1, as a byte. -/
def opacityOf (value : String) : Nat :=
  (((leadingFloatD value.toList).mul (Binary32.ofInt 255)).truncateWithin 0 255).toNat

/-- `h`, or `h v` with a vertical keyword. -/
def textAlignOf (value : String) : Declaration :=
  match cut? [' '] value.toList with
  | some (h, v) =>
    textAlign (TextAlign.ofKeyword (String.ofList h)) (some (String.ofList (trim v)))
  | none => textAlign (TextAlign.ofKeyword value) none

def parse? (name value : String) (screen : Size) : Option Declaration :=
  match name with
  | "color" => some (textColor (Color.ofStylesheet value))
  | "background" | "background-color" | "bgcolor" => some (background (Color.ofStylesheet value))
  | "font-size" | "font" => some (font (Font.nearest (size value)))
  | "border-radius" | "radius" => some (radius (size value))
  | "z-index" => some (zIndex (leadingInt value.toList))
  | "width" | "w" => some (width (coordinate value screen.width))
  | "height" | "h" => some (height (coordinate value screen.height))
  | "left" => some (left (coordinate value screen.width))
  | "top" => some (top (coordinate value screen.height))
  | "padding" => some (padding none (size value))
  | "padding-top" => some (padding (some .top) (size value))
  | "padding-right" => some (padding (some .right) (size value))
  | "padding-bottom" => some (padding (some .bottom) (size value))
  | "padding-left" => some (padding (some .left) (size value))
  | "opacity" => some (opacity (opacityOf value))
  | "text-align" => some (textAlignOf value)
  | "text-valign" => some (textValign value)
  | _ => none

end Declaration
end ScreenMarkup
