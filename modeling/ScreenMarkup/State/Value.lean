import ScreenMarkup.Numeric.Leading

/-!
# Values of variables

A variable holds a text, a whole number, a truth value or a single-precision
number. Every value has one canonical text and can be read as any type.
-/

set_option autoImplicit false

namespace ScreenMarkup

inductive VarType where
  | string | int | bool | float
deriving DecidableEq, Inhabited

def VarType.text : VarType → String
  | string => "string"
  | int => "int"
  | bool => "bool"
  | float => "float"

def VarType.isKnown (name : String) : Bool :=
  name = "string" || name = "int" || name = "bool" || name = "float"

/-- An unknown name means text. -/
def VarType.ofName (name : String) : VarType :=
  if name = "int" then int
  else if name = "bool" then bool
  else if name = "float" then float
  else string

inductive Value where
  | string (s : String)
  | int (n : Int)
  | bool (b : Bool)
  | float (x : Binary32)
deriving DecidableEq, Inhabited

/-- Only `true` and `1` are true. -/
def readBool (s : String) : Bool := s = "true" || s = "1"

namespace Value
open Numeric

def read (type : VarType) (s : String) : Value :=
  match type with
  | .string => string s
  | .int => int (leadingInt s.toList)
  | .bool => bool (readBool s)
  | .float => float (leadingFloatD s.toList)

def type : Value → VarType
  | string _ => .string
  | int _ => .int
  | bool _ => .bool
  | float _ => .float

def intText (n : Int) : String :=
  String.ofList <| (if n < 0 then ['-'] else []) ++ Nat.toDigits 10 n.natAbs

def boolText (b : Bool) : String := if b then "true" else "false"

/-- The canonical text: numbers in decimal, single-precision ones with two places. -/
def text : Value → String
  | string s => s
  | int n => intText n
  | bool b => boolText b
  | float x => x.text

def toInt : Value → Int
  | string s => leadingInt s.toList
  | int n => n
  | bool b => if b then 1 else 0
  | float x => truncateInt32 x

def toBool : Value → Bool
  | string s => readBool s
  | int n => n ≠ 0
  | bool b => b
  | float x => !x.isZero

def toFloat : Value → Binary32
  | string s => leadingFloatD s.toList
  | int n => Binary32.ofInt n
  | bool b => Binary32.ofInt (if b then 1 else 0)
  | float x => x

/-- The same type and the same value; single-precision numbers are compared as numbers. -/
def same : Value → Value → Bool
  | string s, string t => s = t
  | int m, int n => m = n
  | bool a, bool b => a = b
  | float x, float y => x.eqv y
  | _, _ => false

end Value
end ScreenMarkup
