/-!
# Digits

The value of a run of decimal or hexadecimal digits, and reading a text that
consists of such a run.
-/

set_option autoImplicit false

namespace ScreenMarkup.Numeric

def digitValue (c : Char) : Nat := c.toNat - '0'.toNat

/-- The value of a run of decimal digits. -/
def digitsValue (ds : List Char) : Nat := ds.foldl (fun n c => 10 * n + digitValue c) 0

def isHexDigit (c : Char) : Bool :=
  c.isDigit || ('a' ≤ c && c ≤ 'f') || ('A' ≤ c && c ≤ 'F')

def hexDigitValue (c : Char) : Nat :=
  if c.isDigit then digitValue c
  else if 'a' ≤ c ∧ c ≤ 'f' then c.toNat - 'a'.toNat + 10
  else c.toNat - 'A'.toNat + 10

/-- The value of a run of hexadecimal digits. -/
def hexValue (ds : List Char) : Nat := ds.foldl (fun n c => 16 * n + hexDigitValue c) 0

/-- The text without a leading `+`. -/
def unsigned : List Char → List Char
  | '+' :: s => s
  | s => s

/-- A nonempty run of decimal digits, an optional `+` before it. -/
def readDecimal? (s : List Char) : Option Nat :=
  if unsigned s = [] ∨ (unsigned s).any (!Char.isDigit ·) then none
  else some (digitsValue (unsigned s))

/-- A nonempty run of hexadecimal digits, an optional `+` before it. -/
def readHex? (s : List Char) : Option Nat :=
  if unsigned s = [] ∨ (unsigned s).any (!isHexDigit ·) then none
  else some (hexValue (unsigned s))

end ScreenMarkup.Numeric
