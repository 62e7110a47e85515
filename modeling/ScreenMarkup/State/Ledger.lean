import ScreenMarkup.State.Store

/-!
# The store in memory

In memory the variables stand in a table that has no order, and their names in
a list, in the order in which they were first declared. Every operation keeps
up the two of them by itself. Access by index finds the name in the list and
then the variable in the table, and a notice reads the table after the write.
-/

set_option autoImplicit false

namespace ScreenMarkup

structure Ledger where
  table : String → Option Variable := fun _ => none
  order : List String := []
  /-- Whether notices are recorded at all. -/
  listening : Bool := false
  notices : List (String × Value) := []
deriving Inhabited

namespace Ledger

def contains (l : Ledger) (name : String) : Bool := (l.table name).isSome

def value? (l : Ledger) (name : String) : Option Value := (l.table name).map (·.value)

def insert (l : Ledger) (name : String) (v : Variable) : Ledger :=
  { l with table := fun n => if n = name then some v else l.table n }

def push (l : Ledger) (name : String) : Ledger := { l with order := l.order ++ [name] }

/-- Gives notice of a variable with the value that it has now. -/
def notify (l : Ledger) (name : String) : Ledger :=
  match l.table name with
  | some v => if l.listening then { l with notices := l.notices ++ [(name, v.value)] } else l
  | none => l

def notifyIf (l : Ledger) (wanted : Bool) (name : String) : Ledger :=
  if wanted then l.notify name else l

def define (l : Ledger) (name : String) (type : VarType) (initial : Value) : Ledger :=
  let placed := if l.contains name then l else l.push name
  placed.insert name ⟨type, initial, initial⟩

def defineText (l : Ledger) (name : String) (type : VarType) (initial : String) : Ledger :=
  l.define name type (Value.read type initial)

def typeOf (l : Ledger) (name : String) : VarType :=
  ((l.table name).map (·.type)).getD .string

def set (l : Ledger) (name : String) (value : Value) (notify : Bool) : Bool × Ledger :=
  match l.table name with
  | some v =>
    if v.value.same value then (false, l)
    else (true, (l.insert name { v with value := value }).notifyIf notify name)
  | none => (true, ((l.push name).insert name ⟨.string, value, value⟩).notifyIf notify name)

def setText (l : Ledger) (name text : String) (notify : Bool) : Bool × Ledger :=
  l.set name (Value.read (l.typeOf name) text) notify

def reset (l : Ledger) (name : String) : Bool × Ledger :=
  match l.table name with
  | some v => (true, (l.insert name { v with value := v.initial }).notify name)
  | none => (false, l)

def resetAll (l : Ledger) : Ledger :=
  { l with table := fun n => (l.table n).map fun v => { v with value := v.initial } }

def clear (l : Ledger) : Ledger := { l with table := fun _ => none, order := [] }

def text (l : Ledger) (name : String) : String := ((l.value? name).map (·.text)).getD ""

def int (l : Ledger) (name : String) : Int := ((l.value? name).map (·.toInt)).getD 0

def bool (l : Ledger) (name : String) : Bool := ((l.value? name).map (·.toBool)).getD false

def float (l : Ledger) (name : String) : Binary32 :=
  ((l.value? name).map (·.toFloat)).getD (Binary32.zero false)

def size (l : Ledger) : Nat := l.order.length

def nameAt (l : Ledger) (i : Nat) : String := l.order[i]?.getD ""

def typeAt (l : Ledger) (i : Nat) : VarType :=
  ((l.order[i]?.bind l.table).map (·.type)).getD .string

def initialAt (l : Ledger) (i : Nat) : String :=
  ((l.order[i]?.bind l.table).map (·.initial.text)).getD ""

def takeNotices (l : Ledger) : List (String × Value) × Ledger :=
  (l.notices, { l with notices := [] })

/-- The variables in the order of their names. -/
def toStore (l : Ledger) : Store where
  vars := l.order.filterMap fun name => (l.table name).map (name, ·)
  listening := l.listening
  notices := l.notices

end Ledger

/-! ## Operations -/

inductive StoreOperation where
  | define (name : String) (type : VarType) (initial : Value)
  | defineText (name : String) (type : VarType) (initial : String)
  | set (name : String) (value : Value) (notify : Bool)
  | setText (name text : String) (notify : Bool)
  | reset (name : String)
  | resetAll
  | clear
deriving DecidableEq, Inhabited

/-- Performs an operation and gives its answer, where it has one. -/
def Ledger.perform (l : Ledger) : StoreOperation → Option Bool × Ledger
  | .define name type initial => (none, l.define name type initial)
  | .defineText name type initial => (none, l.defineText name type initial)
  | .set name value notify => (l.set name value notify).map some id
  | .setText name text notify => (l.setText name text notify).map some id
  | .reset name => (l.reset name).map some id
  | .resetAll => (none, l.resetAll)
  | .clear => (none, l.clear)

def Ledger.after (l : Ledger) (ops : List StoreOperation) : Ledger :=
  ops.foldl (fun l op => (l.perform op).2) l

def Store.perform (s : Store) : StoreOperation → Option Bool × Store
  | .define name type initial => (none, s.define name type initial)
  | .defineText name type initial => (none, s.defineText name type initial)
  | .set name value notify => (s.set name value notify).map some id
  | .setText name text notify => (s.setText name text notify).map some id
  | .reset name => (s.reset name).map some id
  | .resetAll => (none, s.resetAll)
  | .clear => (none, s.clear)

def Store.after (s : Store) (ops : List StoreOperation) : Store :=
  ops.foldl (fun s op => (s.perform op).2) s

end ScreenMarkup
