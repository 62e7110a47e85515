import ScreenMarkup.Numeric.Digits
import ScreenMarkup.Text.Blank
import ScreenMarkup.Text.Search

/-!
# Colors

A color is a number `0xRRGGBB`. Stylesheets and inline attributes read
colors by different rules; what neither can read is black.
-/

set_option autoImplicit false

namespace ScreenMarkup.Color
open Text Numeric

def named : List (String × Nat) :=
  [("black", 0x000000), ("white", 0xFFFFFF), ("red", 0xFF0000), ("green", 0x00FF00),
   ("blue", 0x0000FF), ("yellow", 0xFFFF00), ("cyan", 0x00FFFF), ("magenta", 0xFF00FF),
   ("gray", 0x808080), ("grey", 0x808080), ("orange", 0xFFA500), ("transparent", 0x000000)]

/-- `0xRGB` with every digit doubled. -/
def double (rgb : Nat) : Nat :=
  (rgb / 256 % 16 * 0x11) * 65536 + (rgb / 16 % 16 * 0x11) * 256 + rgb % 16 * 0x11

/-- The text without blanks around it and without a leading `#`. -/
def body (value : String) : List Char :=
  match trim value.toList with
  | '#' :: s => s
  | s => s

/-- A stylesheet color: a name, or a number of three or six bytes in hexadecimal. -/
def ofStylesheet (value : String) : Nat :=
  let s := body value
  match named.lookup (String.ofList s) with
  | some rgb => rgb
  | none =>
    if byteSize s = 6 then (readHex? s).getD 0
    else if byteSize s = 3 then ((readHex? s).map double).getD 0
    else 0

/-- An attribute color: the leading hexadecimal digits, three of them doubled, otherwise the
last six. More than 32 bits are black. -/
def ofAttribute (value : String) : Nat :=
  let ds := (body value).takeWhile isHexDigit
  match readHex? ds with
  | some n => if 0x100000000 ≤ n then 0 else if ds.length = 3 then double n else n % 0x1000000
  | none => 0

end ScreenMarkup.Color
