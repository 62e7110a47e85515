import ScreenMarkup.Text.Blank
import ScreenMarkup.Numeric.Binary32
import ScreenMarkup.Numeric.Digits

/-!
# Numbers at the start of a text

A value such as `12px` or `50%` is read from its leading number. Integers are
32-bit and saturate; what is too long for 64 bits, like what has no digits,
counts as zero.
-/

set_option autoImplicit false

namespace ScreenMarkup.Numeric
open ScreenMarkup.Text

def minInt32 : Int := -0x80000000
def maxInt32 : Int := 0x7FFFFFFF
def minInt64 : Int := -0x8000000000000000
def maxInt64 : Int := 0x7FFFFFFFFFFFFFFF

/-- An optional sign and the rest. -/
def readSign : List Char → Bool × List Char
  | '-' :: s => (true, s)
  | '+' :: s => (false, s)
  | s => (false, s)

def leadingInt (text : List Char) : Int :=
  let (negative, s) := readSign (trimStart text)
  let ds := s.takeWhile Char.isDigit
  let n : Int := if negative then -(digitsValue ds : Int) else digitsValue ds
  if ds = [] ∨ n < minInt64 ∨ maxInt64 < n then 0
  else max minInt32 (min maxInt32 n)

/-- A decimal number as it is written: a sign, digits, and how many of them are decimal places. -/
structure Decimal where
  negative : Bool
  digits : List Char
  places : Nat
deriving DecidableEq, Inhabited

/-- The leading number of the form `[+-]digits[.digits]`, after blanks, and the text after it. -/
def leadingDecimal (text : List Char) : Option Decimal × List Char :=
  let start := trimStart text
  let (negative, s) := readSign start
  let whole := s.takeWhile Char.isDigit
  let afterWhole := s.dropWhile Char.isDigit
  let (fraction, rest) : List Char × List Char :=
    match afterWhole with
    | '.' :: t =>
      let ds := t.takeWhile Char.isDigit
      if ds = [] ∧ whole = [] then ([], afterWhole) else (ds, t.dropWhile Char.isDigit)
    | _ => ([], afterWhole)
  if whole = [] ∧ fraction = [] then (none, start)
  else (some ⟨negative, whole ++ fraction, fraction.length⟩, rest)

/-- The single-precision number that is nearest to a decimal one. -/
def Decimal.nearest (d : Decimal) : Binary32 :=
  Binary32.ofRatio d.negative (digitsValue d.digits) (Nat.pow 10 d.places)

def leadingFloat (text : List Char) : Option Binary32 × List Char :=
  (leadingDecimal text).map (Option.map Decimal.nearest) id

def leadingFloatD (text : List Char) : Binary32 :=
  (leadingFloat text).1.getD (Binary32.zero false)

def truncateInt32 (x : Binary32) : Int := x.truncateWithin minInt32 maxInt32

end ScreenMarkup.Numeric
