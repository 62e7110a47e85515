import ScreenMarkup.Text.Blank
import ScreenMarkup.Text.Search

/-!
# Selectors

A selector is a tag, a class, a tag with a class, or an id, and beats those
of a lower level in this order. An element has one tag, one id, and a list
of classes separated by ASCII blanks.
-/

set_option autoImplicit false

namespace ScreenMarkup

inductive Selector where
  | tag (tag : String)
  | ofClass (name : String)
  | tagClass (tag name : String)
  | id (id : String)
deriving DecidableEq, Inhabited

namespace Selector

def level : Selector → Nat
  | tag _ => 0
  | ofClass _ => 1
  | tagClass _ _ => 2
  | id _ => 3

/-- The selector that a trimmed text writes; what is none of the other forms is a tag. -/
def parse (text : String) : Selector :=
  match text.toList with
  | '#' :: s => id (String.ofList s)
  | '.' :: s => ofClass (String.ofList s)
  | s =>
    match Text.cut? ['.'] s with
    | some (t, c) => tagClass (String.ofList t) (String.ofList c)
    | none => tag text

def text : Selector → String
  | tag t => t
  | ofClass c => "." ++ c
  | tagClass t c => t ++ "." ++ c
  | id i => "#" ++ i

def tagName : Selector → String
  | tag t => t
  | tagClass t _ => t
  | _ => ""

def className : Selector → String
  | ofClass c => c
  | tagClass _ c => c
  | _ => ""

def idName : Selector → String
  | id i => i
  | _ => ""

end Selector

/-- The class occurs among the blank-separated `classes`. -/
def hasClass (classes name : String) : Bool :=
  name ≠ "" && (Text.words classes.toList).contains name.toList

/-- An empty tag, class or id matches nothing. -/
def Selector.selects (s : Selector) (tag id classes : String) : Bool :=
  match s with
  | .tag t => tag ≠ "" && t = tag
  | .ofClass c => hasClass classes c
  | .tagClass t c => tag ≠ "" && t = tag && hasClass classes c
  | .id i => id ≠ "" && i = id

end ScreenMarkup
