import ScreenMarkup.Markup.Entity
import ScreenMarkup.State.Store

/-!
# Templates

A template is a text with placeholders `{name}`. It depends on exactly the
variables whose placeholder it contains. A name has at most thirty bytes; a
longer one, like a brace without its partner, is plain text.
-/

set_option autoImplicit false

namespace ScreenMarkup.Template
open Text

def nameLimit : Nat := 30

/-- The name and the rest after a placeholder's opening brace. -/
def readName? (s : List Char) : Option (List Char × List Char) :=
  (cut? ['}'] s).filter fun parts => byteSize parts.1 ≤ nameLimit

theorem readName?_length {s : List Char} {parts : List Char × List Char}
    (h : readName? s = some parts) : parts.2.length < s.length := by
  have hc : cut? ['}'] s = some parts := (Option.filter_eq_some_iff.1 h).1
  exact cut?_rest_length hc

inductive Piece where
  | literal (c : Char)
  | placeholder (name : List Char)
deriving DecidableEq, Inhabited

/-- A template as characters and placeholders. -/
def scan : List Char → List Piece
  | [] => []
  | c :: s =>
    if c = '{' then
      match _h : readName? s with
      | some (name, rest) => .placeholder name :: scan rest
      | none => .literal '{' :: scan s
    else .literal c :: scan s
termination_by s => s.length
decreasing_by
  · have := readName?_length _h
    simp only [List.length_cons] at this ⊢; omega
  · simp
  · simp

def Piece.expand (store : Store) : Piece → List Char
  | .literal c => [c]
  | .placeholder name => (store.text (String.ofList name)).toList

/-- The template with every placeholder replaced by the variable's text, then its entities
decoded. -/
def render (template : String) (store : Store) : String :=
  String.ofList (Markup.decode ((scan template.toList).flatMap (Piece.expand store)))

def token (name : String) : List Char := '{' :: (name.toList ++ ['}'])

def mentions (template name : String) : Bool :=
  name ≠ "" && contains (token name) template.toList

def isDynamic (text : String) : Bool := text.toList.contains '{'

/-- The variable of a binding, written `{name}` or plainly. -/
def boundName (binding : String) : String :=
  match binding.toList with
  | '{' :: s =>
    if s.length ≥ 2 ∧ s.getLast? = some '}' then String.ofList s.dropLast else binding
  | _ => binding

def Piece.name? : Piece → Option (List Char)
  | .literal _ => none
  | .placeholder name => if name = [] then none else some name

/-- The names of the variables that a template depends on, in the order of their first
placeholders. -/
def dependencies (template : String) : List String :=
  ((scan template.toList).filterMap Piece.name?).eraseDups.map String.ofList

end ScreenMarkup.Template
