/-!
# Single-precision numbers

Float variables hold single-precision numbers: a sign, a mantissa below
`2 ^ 24` and an exponent of at least `-149`, the infinities, and the two signed
data that are no number. Every operation computes the exact ratio and rounds it
once, to the nearest number, a tie to the even mantissa.
-/

set_option autoImplicit false

namespace ScreenMarkup

inductive Binary32 where
  | finite (negative : Bool) (mantissa : Nat) (exponent : Int)
  | infinite (negative : Bool)
  | nan (negative : Bool)
deriving DecidableEq, Inhabited

/-- `num / den` rounded to the nearest integer, a tie to the even one. -/
def roundTiesEven (num den : Nat) : Nat :=
  let q := num / den
  let r := num % den
  if 2 * r < den then q
  else if den < 2 * r then q + 1
  else if q % 2 = 0 then q else q + 1

/-- `num / den` lies in `[2 ^ e, 2 ^ (e + 1))` for this `e`, when both are positive. -/
def ratioLog (num den : Nat) : Int :=
  let e := (num.log2 : Int) - den.log2
  if den <<< e.toNat ≤ num <<< (-e).toNat then e else e - 1

namespace Binary32

def zero (negative : Bool) : Binary32 := .finite negative 0 (-149)

/-- The number nearest to `num / den`. -/
def ofRatio (negative : Bool) (num den : Nat) : Binary32 :=
  if num = 0 ∨ den = 0 then zero negative
  else
    let q := max (ratioLog num den - 23) (-149)
    let m := roundTiesEven (num <<< (-q).toNat) (den <<< q.toNat)
    let (m, q) := if m = 0x1000000 then (0x800000, q + 1) else (m, q)
    if 104 < q then .infinite negative else .finite negative m q

def ofInt (n : Int) : Binary32 := ofRatio (n < 0) n.natAbs 1

def isNegative : Binary32 → Bool
  | .finite s _ _ => s
  | .infinite s => s
  | .nan s => s

/-- The magnitude of a finite number as a ratio. -/
def ratio (mantissa : Nat) (exponent : Int) : Nat × Nat :=
  (mantissa <<< exponent.toNat, 1 <<< (-exponent).toNat)

def mul : Binary32 → Binary32 → Binary32
  | .nan s, _ => .nan s
  | _, .nan s => .nan s
  | .infinite s, .infinite t => .infinite (s != t)
  | .infinite s, .finite t m _ => if m = 0 then .nan false else .infinite (s != t)
  | .finite s m _, .infinite t => if m = 0 then .nan false else .infinite (s != t)
  | .finite s m p, .finite t n q =>
    let (a, b) := ratio m p
    let (c, d) := ratio n q
    ofRatio (s != t) (a * c) (b * d)

def div : Binary32 → Binary32 → Binary32
  | .nan s, _ => .nan s
  | _, .nan s => .nan s
  | .infinite _, .infinite _ => .nan false
  | .infinite s, .finite t _ _ => .infinite (s != t)
  | .finite s _ _, .infinite t => zero (s != t)
  | .finite s m p, .finite t n q =>
    if n = 0 then if m = 0 then .nan false else .infinite (s != t)
    else
      let (a, b) := ratio m p
      let (c, d) := ratio n q
      ofRatio (s != t) (a * d) (b * c)

/-- The exact sum of two finite numbers; a zero sum is negative only when both terms are. -/
def add : Binary32 → Binary32 → Binary32
  | .nan s, _ => .nan s
  | _, .nan s => .nan s
  | .infinite s, .infinite t => if s = t then .infinite s else .nan false
  | .infinite s, .finite _ _ _ => .infinite s
  | .finite _ _ _, .infinite t => .infinite t
  | .finite s m p, .finite t n q =>
    let (a, b) := ratio m p
    let (c, d) := ratio n q
    let x : Int := (if s then -(a : Int) else a) * d
    let y : Int := (if t then -(c : Int) else c) * b
    let total := x + y
    if total = 0 then zero (s && t)
    else ofRatio (total < 0) total.natAbs (b * d)

/-- Equality of values: the two zeros are equal and `nan` equals nothing. -/
def eqv : Binary32 → Binary32 → Bool
  | .finite s m p, .finite t n q => m = n && (m = 0 || (s = t && p = q))
  | .infinite s, .infinite t => s = t
  | _, _ => false

def isZero : Binary32 → Bool
  | .finite _ m _ => m = 0
  | _ => false

/-- The integer part, kept within `lo` and `hi`; `nan` gives zero. -/
def truncateWithin (lo hi : Int) : Binary32 → Int
  | .nan _ => 0
  | .infinite s => if s then lo else hi
  | .finite s m q =>
    let (a, b) := ratio m q
    let n : Int := a / b
    max lo (min hi (if s then -n else n))

/-- The encoding in 32 bits: sign, biased exponent, mantissa without its leading bit. -/
def bits : Binary32 → Nat
  | .nan s => (if s then 0x80000000 else 0) + 0x7FC00000
  | .infinite s => (if s then 0x80000000 else 0) + 0x7F800000
  | .finite s m q =>
    (if s then 0x80000000 else 0) +
      (if m < 0x800000 then m else (q + 150).toNat * 0x800000 + (m - 0x800000))

def decimalDigits (n : Nat) : List Char := Nat.toDigits 10 n

/-- The text with two decimals, rounded from the exact value. -/
def text : Binary32 → String
  | .nan _ => "NaN"
  | .infinite s => if s then "-inf" else "inf"
  | .finite s m q =>
    let (a, b) := ratio m q
    let n := roundTiesEven (100 * a) b
    String.ofList <| (if s then ['-'] else []) ++ decimalDigits (n / 100) ++ ['.'] ++
      decimalDigits (n % 100 / 10) ++ decimalDigits (n % 10)

end Binary32
end ScreenMarkup
