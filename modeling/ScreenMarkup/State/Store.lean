import ScreenMarkup.State.Value

/-!
# The variable store

Variables keep the order in which they were first declared. A write that
changes a variable, and a reset, may be noticed: notices wait in the store,
in the order of their writes, until they are taken.
-/

set_option autoImplicit false

namespace ScreenMarkup

structure Variable where
  type : VarType
  value : Value
  initial : Value
deriving DecidableEq, Inhabited

structure Store where
  vars : List (String × Variable) := []
  /-- Whether notices are recorded at all. -/
  listening : Bool := false
  notices : List (String × Value) := []
deriving DecidableEq, Inhabited

namespace Store

def names (s : Store) : List String := s.vars.map (·.1)

def get? (s : Store) (name : String) : Option Variable := s.vars.lookup name

def contains (s : Store) (name : String) : Bool := (s.get? name).isSome

/-- Replaces the variable where it stands, or declares it last. -/
def put (name : String) (v : Variable) : List (String × Variable) → List (String × Variable)
  | [] => [(name, v)]
  | e :: es => if e.1 = name then (name, v) :: es else e :: put name v es

def withVariable (s : Store) (name : String) (v : Variable) : Store :=
  { s with vars := put name v s.vars }

def notice (s : Store) (name : String) (value : Value) : Store :=
  if s.listening then { s with notices := s.notices ++ [(name, value)] } else s

def define (s : Store) (name : String) (type : VarType) (initial : Value) : Store :=
  s.withVariable name ⟨type, initial, initial⟩

def defineText (s : Store) (name : String) (type : VarType) (initial : String) : Store :=
  s.define name type (Value.read type initial)

def typeOf (s : Store) (name : String) : VarType :=
  ((s.get? name).map (·.type)).getD .string

/-- Writes a value and tells whether it changed. An undeclared name becomes a text variable
whose initial value is the written one. -/
def set (s : Store) (name : String) (value : Value) (notify : Bool) : Bool × Store :=
  let written (v : Variable) : Bool × Store :=
    let s' := s.withVariable name v
    (true, if notify then s'.notice name value else s')
  match s.get? name with
  | some v => if v.value.same value then (false, s) else written { v with value := value }
  | none => written ⟨.string, value, value⟩

/-- Writes a text, read as the declared type. -/
def setText (s : Store) (name text : String) (notify : Bool) : Bool × Store :=
  s.set name (Value.read (s.typeOf name) text) notify

def text (s : Store) (name : String) : String :=
  ((s.get? name).map fun v => v.value.text).getD ""

def int (s : Store) (name : String) : Int :=
  ((s.get? name).map fun v => v.value.toInt).getD 0

def bool (s : Store) (name : String) : Bool :=
  ((s.get? name).map fun v => v.value.toBool).getD false

def float (s : Store) (name : String) : Binary32 :=
  ((s.get? name).map fun v => v.value.toFloat).getD (Binary32.zero false)

/-- Restores the initial value of a declared variable and tells whether there is one. -/
def reset (s : Store) (name : String) : Bool × Store :=
  match s.get? name with
  | some v =>
    (true, (s.withVariable name { v with value := v.initial }).notice name v.initial)
  | none => (false, s)

def resetAll (s : Store) : Store :=
  { s with vars := s.vars.map fun e => (e.1, { e.2 with value := e.2.initial }) }

def clear (s : Store) : Store := { s with vars := [] }

def size (s : Store) : Nat := s.vars.length

def nameAt (s : Store) (i : Nat) : String := (s.vars[i]?.map (·.1)).getD ""

def typeAt (s : Store) (i : Nat) : VarType := (s.vars[i]?.map (·.2.type)).getD .string

def initialAt (s : Store) (i : Nat) : String := (s.vars[i]?.map (·.2.initial.text)).getD ""

def takeNotices (s : Store) : List (String × Value) × Store := (s.notices, { s with notices := [] })

end Store
end ScreenMarkup
