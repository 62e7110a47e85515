import ScreenMarkup.Numeric.Leading

/-!
# Written single-precision numbers

A whole text is a number when it has the form `[+-]digits[.digits][e[+-]digits]`
with at least one digit before the exponent, or names infinity or no number.
-/

set_option autoImplicit false

namespace ScreenMarkup.Numeric

def fractionDigits : List Char → List Char × List Char
  | '.' :: s => (s.takeWhile Char.isDigit, s.dropWhile Char.isDigit)
  | s => ([], s)

/-- The exponent at the end of a number, zero when there is none. -/
def readExponent? : List Char → Option Int
  | [] => some 0
  | c :: s =>
    if c = 'e' ∨ c = 'E' then
      let (negative, ds) := readSign s
      if ds = [] ∨ ds.any (!Char.isDigit ·) then none
      else some (if negative then -(digitsValue ds : Int) else digitsValue ds)
    else none

/-- Beyond this decimal exponent every number is infinite, and below its negative zero, as long
as the digits are few. -/
def exponentLimit : Int := 100000

def readBinary32? (text : String) : Option Binary32 :=
  let (negative, s) := readSign text.toList
  let word := String.ofList (s.map Char.toLower)
  if word = "inf" ∨ word = "infinity" then some (.infinite negative)
  else if word = "nan" then some (.nan negative)
  else
    let whole := s.takeWhile Char.isDigit
    let (fraction, rest) := fractionDigits (s.dropWhile Char.isDigit)
    if whole = [] ∧ fraction = [] then none
    else
      (readExponent? rest).map fun exponent =>
        let e := max (-exponentLimit) (min exponentLimit exponent) - fraction.length
        Binary32.ofRatio negative (digitsValue (whole ++ fraction) * Nat.pow 10 e.toNat)
          (Nat.pow 10 (-e).toNat)

end ScreenMarkup.Numeric
