import ScreenMarkup.Markup.Element
import ScreenMarkup.Markup.Lexeme

/-!
# Documents

A document is read into the list of its top-level elements. Reading never
fails: what is unclosed at the end is closed there, and a stray closing tag
ends the document.
-/

set_option autoImplicit false

namespace ScreenMarkup.Markup

/-- An element whose closing tag has not been read; `body` is the text where its content starts. -/
structure Unclosed where
  tag : String
  attrs : NameTable
  body : List Char
  text : String := ""
  /-- The children read so far, the latest first. -/
  children : List Element := []

namespace Unclosed

def keepsSource (tag : String) : Bool := tag = "button"

/-- The element, when its content stops where the text `stop` is left. -/
def close (u : Unclosed) (stop : List Char) : Element where
  tag := u.tag
  attrs := u.attrs
  text := u.text
  children := u.children.reverse
  inner :=
    if keepsSource u.tag then String.ofList (u.body.take (u.body.length - stop.length)) else ""

def addText (u : Unclosed) (t : String) : Unclosed := { u with text := u.text ++ t }

def addChild (u : Unclosed) (e : Element) : Unclosed := { u with children := e :: u.children }

/-- The outermost element, when the text ends with all of them unclosed. -/
def closeAll (u : Unclosed) : List Unclosed → Element
  | [] => u.close []
  | outer :: more => closeAll (outer.addChild (u.close [])) more

end Unclosed

/-- The top-level elements that the lexemes make, with `stack` unclosed, innermost first, and
`here` the text where the first lexeme begins. -/
def assemble (stack : List Unclosed) (here : List Char) :
    List (Lexeme × List Char) → List Element
  | [] =>
    match stack with
    | [] => []
    | u :: more => [u.closeAll more]
  | (lexeme, rest) :: later =>
    match lexeme, stack with
    | .opening tag attrs, _ => assemble (⟨tag, attrs, rest, "", []⟩ :: stack) rest later
    | .whole tag attrs text, [] => ⟨tag, attrs, text, [], ""⟩ :: assemble [] rest later
    | .whole tag attrs text, u :: more =>
      assemble (u.addChild ⟨tag, attrs, text, [], ""⟩ :: more) rest later
    | .closing, [] => []
    | .closing, [u] => u.close here :: assemble [] rest later
    | .closing, u :: outer :: more => assemble (outer.addChild (u.close here) :: more) rest later
    | .text t, u :: more => assemble (u.addText t :: more) rest later
    | .text _, [] => assemble [] rest later
    | .skipped, _ => assemble stack rest later

/-- The top-level elements of a text. -/
def elements (text : String) : List Element := assemble [] text.toList (scan text.toList)

/-- The whole document under a root element. -/
def parse (text : String) : Element := { tag := "root", children := elements text }

/-! ## One element after the other -/

/-- What a lexeme leaves: elements that are still unclosed, an element that is complete at the top
level, or the end of the document. -/
inductive Progress where
  | unclosed (stack : List Unclosed)
  | complete (e : Element)
  | ended

/-- The effect of a lexeme that begins where the text `here` is left and ends where `rest` is. -/
def advance (stack : List Unclosed) (here rest : List Char) : Lexeme → Progress
  | .opening tag attrs => .unclosed (⟨tag, attrs, rest, "", []⟩ :: stack)
  | .whole tag attrs text =>
    match stack with
    | [] => .complete ⟨tag, attrs, text, [], ""⟩
    | u :: more => .unclosed (u.addChild ⟨tag, attrs, text, [], ""⟩ :: more)
  | .closing =>
    match stack with
    | [] => .ended
    | [u] => .complete (u.close here)
    | u :: outer :: more => .unclosed (outer.addChild (u.close here) :: more)
  | .text t =>
    match stack with
    | [] => .unclosed []
    | u :: more => .unclosed (u.addText t :: more)
  | .skipped => .unclosed stack

/-- The next top-level element, with `stack` unclosed, and the text that is left after it. Nothing
beyond it is read. -/
def firstElement? (stack : List Unclosed) : List Char → Option (Element × List Char)
  | [] =>
    match stack with
    | [] => none
    | u :: more => some (u.closeAll more, [])
  | c :: s =>
    match advance stack (c :: s) (next c s).2 (next c s).1 with
    | .unclosed stack => firstElement? stack (next c s).2
    | .complete e => some (e, (next c s).2)
    | .ended => none
termination_by s => s.length
decreasing_by exact Nat.lt_succ_of_le (next_length_le c s)

theorem firstElement?_length {stack : List Unclosed} {s rest : List Char} {e : Element}
    (h : firstElement? stack s = some (e, rest)) : rest.length ≤ s.length - 1 := by
  fun_induction firstElement? stack s with
  | case1 => simp at h
  | case2 => simp_all
  | case3 stack c s stack' hp ih =>
    have := next_length_le c s
    have := ih h
    simp only [List.length_cons]
    omega
  | case4 stack c s e' hp =>
    cases h
    exact next_length_le c s
  | case5 => simp at h

theorem firstElement?_nil : firstElement? [] [] = none := by rw [firstElement?]

/-- Visits the top-level elements in order until the visitor is done, and reads no further. -/
def visit {σ : Type} (text : String) (start : σ) (step : Element → σ → ForInStep σ) : σ :=
  go start text.toList
where
  go (state : σ) (s : List Char) : σ :=
    match _h : firstElement? [] s with
    | none => state
    | some (e, rest) =>
      match step e state with
      | .done state => state
      | .yield state => go state rest
  termination_by s.length
  decreasing_by
    cases s with
    | nil => rw [firstElement?_nil] at _h; cases _h
    | cons c s => exact Nat.lt_succ_of_le (firstElement?_length _h)

/-- The first element with the tag at any depth. Nothing is read after the top-level element that it
is or lies in. -/
def findFirst? (text tag : String) : Option Element :=
  visit text none fun e _ =>
    match if e.tag = tag then some e else e.findDescendant? tag with
    | some found => .done (some found)
    | none => .yield none

/-- The source between the first text that opens like a tag `tag` and the next `</tag>`, empty
when either is missing. -/
def sourceOf (text tag : String) : String :=
  let inner? := do
    let (_, opened) ← Text.cut? ('<' :: tag.toList) text.toList
    let (_, content) ← Text.cut? ['>'] (tag.toList ++ opened)
    let (inner, _) ← Text.cut? ("</".toList ++ tag.toList ++ ['>']) content
    some (String.ofList inner)
  inner?.getD ""

end ScreenMarkup.Markup
