import ScreenMarkup.NameTable
import ScreenMarkup.Style.Selector
import ScreenMarkup.Style.Token

/-!
# Rules and stylesheets

A stylesheet text is a sequence of rules `selector { name: value; … }`.
Reading never fails: broken text gives fewer rules. A block runs to its
matching brace, and what is nested inside a block is passed over.

A stylesheet is the list of its rules in the order in which they were
written. The rules that select an element are ranked by level and, within a
level, by that order. The last one that sets a property decides it.
-/

set_option autoImplicit false

namespace ScreenMarkup

structure Rule where
  selector : Selector
  properties : NameTable
deriving DecidableEq

namespace Rule
open Style Text

/-- The tokens of a block up to its closing brace, with `depth` inner blocks open, and the
tokens after that brace. -/
def block (depth : Nat) : List Token → List Token × List Token
  | [] => ([], [])
  | .braceClose :: ts =>
    match depth with
    | 0 => ([], ts)
    | d + 1 => (block d ts).map (.braceClose :: ·) id
  | .braceOpen :: ts => (block (depth + 1) ts).map (.braceOpen :: ·) id
  | t :: ts => (block depth ts).map (t :: ·) id

theorem block_rest_length (depth : Nat) (ts : List Token) :
    (block depth ts).2.length ≤ ts.length := by
  fun_induction block depth ts <;> simp_all <;> omega

/-- The declaration being read: its name so far, or its name and its value so far. -/
inductive Pending where
  | name (text : List Char)
  | value (name text : List Char)

namespace Pending

/-- Both parts are trimmed; a declaration without a name or a value is dropped. -/
def commit (p : Pending) (t : NameTable) : NameTable :=
  match p with
  | name _ => t
  | value n v =>
    if trim n = [] ∨ trim v = [] then t
    else t.insert (String.ofList (trim n)) (String.ofList (trim v))

def push (p : Pending) (s : List Char) : Pending :=
  match p with
  | name n => name (n ++ s)
  | value n v => value n (v ++ s)

end Pending

/-- The declarations of a block. A nested block discards what stands before it in its
declaration. -/
def declarations (depth : Nat) (p : Pending) (t : NameTable) : List Token → NameTable
  | [] => p.commit t
  | token :: ts =>
    match depth, token with
    | 0, .braceOpen => declarations 1 (.name []) t ts
    | 0, .semicolon => declarations 0 (.name []) (p.commit t) ts
    | 0, .colon =>
      match p with
      | .name n => declarations 0 (.value n []) t ts
      | .value _ _ => declarations 0 (p.push [':']) t ts
    | 0, token => declarations 0 (p.push token.text) t ts
    | d + 1, .braceOpen => declarations (d + 2) p t ts
    | d + 1, .braceClose => declarations d p t ts
    | d + 1, _ => declarations (d + 1) p t ts

def blockTable (body : List Token) : NameTable := declarations 0 (.name []) .empty body

def isOpen (t : Token) : Bool := t == .braceOpen

/-- A rule without a selector or without declarations is dropped. -/
def make? (selector : List Char) (properties : NameTable) : Option Rule :=
  if trim selector = [] ∨ properties.isEmpty then none
  else some ⟨Selector.parse (String.ofList (trim selector)), properties⟩

def ofTokens (ts : List Token) : List Rule :=
  match _h : ts.dropWhile (!isOpen ·) with
  | [] => []
  | _ :: rest =>
    let parts := block 0 rest
    (make? (Token.join (ts.takeWhile (!isOpen ·))) (blockTable parts.1)).toList ++ ofTokens parts.2
termination_by ts.length
decreasing_by
  have h1 := (List.dropWhile_sublist (!isOpen ·) (l := ts)).length_le
  have h2 := block_rest_length 0 rest
  rw [_h, List.length_cons] at h1
  omega

/-- The rules of a stylesheet text, in the order in which they are written. -/
def parseAll (css : String) : List Rule := ofTokens (Token.scan (dropComments css.toList))

end Rule
end ScreenMarkup

namespace ScreenMarkup

structure Stylesheet where
  rules : List Rule := []
deriving DecidableEq, Inhabited

namespace Stylesheet

def levels : List Nat := [0, 1, 2, 3]

/-- Appends the rules of a text. -/
def add (s : Stylesheet) (css : String) : Stylesheet := ⟨s.rules ++ Rule.parseAll css⟩

/-- The rules that select an element, in cascade order. -/
def matching (s : Stylesheet) (tag id classes : String) : List Rule :=
  levels.flatMap fun level =>
    s.rules.filter fun r => r.selector.level = level && r.selector.selects tag id classes

/-- The value that wins for a property. -/
def resolve? (s : Stylesheet) (tag id classes property : String) : Option String :=
  ((s.matching tag id classes).filterMap fun r => r.properties.get? property).getLast?

end Stylesheet
end ScreenMarkup
