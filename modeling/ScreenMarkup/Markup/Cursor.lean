import ScreenMarkup.Markup.Document

/-!
# Reading with a cursor

The same documents, read by a cursor that counts bytes. A part of the text can
only be taken from a boundary between two characters to another one, and what
follows the cursor only where the cursor stands on such a boundary: elsewhere
there is no result. There is none either where a loop goes on for ever, and
nothing but the cursor limits a loop.
-/

set_option autoImplicit false

namespace ScreenMarkup

namespace Text

/-- What is left of a text without its first bytes, if they are whole characters. -/
def dropBytes? : Nat → List Char → Option (List Char)
  | 0, s => some s
  | _ + 1, [] => none
  | n + 1, c :: s =>
    if c.utf8Size ≤ n + 1 then dropBytes? (n + 1 - c.utf8Size) s else none

/-- The first bytes of a text, if they are whole characters. -/
def takeBytes? : Nat → List Char → Option (List Char)
  | 0, _ => some []
  | _ + 1, [] => none
  | n + 1, c :: s =>
    if c.utf8Size ≤ n + 1 then (takeBytes? (n + 1 - c.utf8Size) s).map (c :: ·) else none

/-- The byte at a position of a text in UTF-8. -/
def byteAt? : Nat → List Char → Option UInt8
  | _, [] => none
  | n, c :: s =>
    if n < c.utf8Size then (String.utf8EncodeChar c)[n]? else byteAt? (n - c.utf8Size) s

/-- The number of bytes before the first occurrence of `mark`. -/
def offset? (mark s : List Char) : Option Nat := (cut? mark s).map fun parts => byteSize parts.1

end Text

namespace Markup

open Text

structure Cursor where
  source : List Char
  position : Nat
deriving DecidableEq, Inhabited

namespace Cursor

def start (text : String) : Cursor := ⟨text.toList, 0⟩

def stop (c : Cursor) : Nat := byteSize c.source

def toEnd (c : Cursor) : Cursor := { c with position := c.stop }

def atEnd (c : Cursor) : Bool := c.stop ≤ c.position

def peek? (c : Cursor) : Option UInt8 := byteAt? c.position c.source

/-- The byte at the cursor is the code of such a character. -/
def sees (c : Cursor) (p : Char → Bool) : Bool := c.peek?.any fun b => p (Char.ofNat b.toNat)

def rest? (c : Cursor) : Option (List Char) := dropBytes? c.position c.source

def slice? (c : Cursor) (first last : Nat) : Option (List Char) :=
  if first ≤ last then (dropBytes? first c.source).bind (takeBytes? (last - first)) else none

/-! ## Moving -/

def step (c : Cursor) : Cursor := { c with position := c.position + 1 }

/-- On to the next boundary between characters. -/
def settle? (c : Cursor) : Option Cursor := if c.rest?.isSome then some c else (c.step |>.settle?)
partial_fixpoint

def advance? (c : Cursor) (n : Nat) : Option Cursor :=
  settle? { c with position := min (c.position + n) c.stop }

def skipWhile? (c : Cursor) (p : Char → Bool) : Option Cursor :=
  if c.sees p then (c.step |>.skipWhile? p) else some c
partial_fixpoint

def skipBlanks? (c : Cursor) : Option Cursor := c.skipWhile? isAsciiBlank

/-- Past the first `mark` in the text `s` at the cursor, or to the end. -/
def pass? (c : Cursor) (mark s : List Char) : Option Cursor :=
  match offset? mark s with
  | some n => c.advance? (n + byteSize mark)
  | none => some c.toEnd

/-- Past a comment or a declaration, if there is one. -/
def skipDeclaration? (c : Cursor) : Option (Option Cursor) := do
  let s ← c.rest?
  if "<!--".toList.isPrefixOf s then
    let inner ← dropBytes? 4 s
    match offset? "-->".toList inner with
    | some n => some (some (← c.advance? (4 + n + 3)))
    | none => some (some c.toEnd)
  else if "<!".toList.isPrefixOf s || "<?".toList.isPrefixOf s then
    some (some (← c.pass? ['>'] s))
  else some none

/-- Over a character that may stand at the cursor. -/
def accept? (c : Cursor) (d : Char) : Option Cursor :=
  if c.sees (· = d) then c.advance? 1 else some c

/-! ## Lexemes -/

def name? (c : Cursor) : Option (String × Cursor) := do
  let d ← c.skipWhile? isNameChar
  let name ← c.slice? c.position d.position
  some (lowered name, d)

def text? (c : Cursor) : Option (String × Cursor) := do
  let s ← c.rest?
  let n := (offset? ['<'] s).getD (byteSize s)
  let content ← takeBytes? n s
  some (String.ofList (trim content), { c with position := c.position + n })

/-- A value in quotes, with the cursor at the first of them. -/
def quoted? (c : Cursor) (quote : Char) : Option (String × Cursor) := do
  let c ← c.advance? 1
  let s ← c.rest?
  let n := (offset? [quote] s).getD (byteSize s)
  let value ← takeBytes? n s
  let c ← c.advance? n
  some (String.ofList value, ← c.accept? quote)

def bare? (c : Cursor) : Option (String × Cursor) := do
  let s ← c.rest?
  let n := byteSize (s.takeWhile (!isBareEnd ·))
  let c ← c.advance? n
  let value ← takeBytes? n s
  some (String.ofList value, c)

def value? (c : Cursor) : Option (String × Cursor) :=
  if c.sees (· = '"') then c.quoted? '"'
  else if c.sees (· = '\'') then c.quoted? '\''
  else c.bare?

def verbatim? (c : Cursor) (tag : String) : Option (String × Cursor) := do
  let s ← c.rest?
  let mark := "</".toList ++ tag.toList ++ ['>']
  match offset? mark s with
  | some n =>
    let c ← c.advance? (n + byteSize mark)
    let body ← takeBytes? n s
    some (String.ofList body, c)
  | none => some (String.ofList s, c.toEnd)

/-! ## Attributes -/

/-- What one turn of a loop comes to: a state to go on with, or a result. -/
inductive Turn (α β : Type) where
  | again (state : α)
  | done (result : β)

/-- One turn of the loop over attributes. -/
def attrsTurn? (c : Cursor) (attrs : NameTable) :
    Option (Turn (NameTable × Cursor) (NameTable × Cursor)) :=
  if c.atEnd then some (.done (attrs, c))
  else do
    let c ← c.skipBlanks?
    if c.peek?.isNone || c.sees (fun d => d = '>' || d = '/') then some (.done (attrs, c))
    else
      let (name, c) ← c.name?
      if name = "" then some (.again (attrs, ← c.advance? 1))
      else
        let c ← c.skipBlanks?
        if c.sees (· = '=') then
          let c ← c.advance? 1
          let c ← c.skipBlanks?
          let (value, c) ← c.value?
          some (.again (attrs.insert name value, c))
        else some (.again (attrs.insert name "true", c))

def attrs? (c : Cursor) (attrs : NameTable) : Option (NameTable × Cursor) := do
  match ← c.attrsTurn? attrs with
  | .again (attrs, c) => c |>.attrs? attrs
  | .done result => some result
partial_fixpoint

/-! ## Elements -/

/-- What comes next in the content of an element. -/
inductive Ahead where
  | passed (e : Element) (c : Cursor)
  | child (c : Cursor)
  /-- The content is over, with the position of its closing tag if there is one. -/
  | over (stop : Option Nat) (c : Cursor)

/-- Reads on in the content of an element, up to the next child at most. -/
def ahead? (c : Cursor) (e : Element) : Option Ahead :=
  if c.atEnd then some (.over none c)
  else do
    let c ← c.skipBlanks?
    if c.atEnd then some (.over none c)
    else if c.sees (· = '<') then
      match ← c.skipDeclaration? with
      | some c => some (.passed e c)
      | none =>
        let s ← c.rest?
        if "</".toList.isPrefixOf s then some (.over (some c.position) (← c.pass? ['>'] s))
        else some (.child c)
    else
      let (text, c) ← c.text?
      some (.passed (e.withText (e.text ++ text)) c)

/-- Nameless elements are left out. -/
def adopt (e child : Element) : Element := if child.tag = "" then e else e.withChild child

mutual
/-- The element that starts at the cursor, nameless where no name follows the `<`. -/
def element? (c : Cursor) : Option (Element × Cursor) :=
  if !c.sees (· = '<') then some ({}, c)
  else do
    let c ← c.advance? 1
    let c ← c.skipBlanks?
    let (tag, c) ← c.name?
    if tag = "" then some ({}, c)
    else
      let (attrs, c) ← c.attrs? .empty
      let c ← c.skipBlanks?
      let e : Element := { tag := tag, attrs := attrs }
      if c.sees (· = '/') then
        let c ← c.advance? 1
        some (e, ← c.accept? '>')
      else (← c.accept? '>') |>.body? e
partial_fixpoint

/-- The element with what follows its start tag. -/
def body? (c : Cursor) (e : Element) : Option (Element × Cursor) :=
  if isVerbatim e.tag then do
    let (text, d) ← c.verbatim? e.tag
    some (e.withText text, d)
  else do
    let (e, stop, d) ← c |>.content? e
    if Unclosed.keepsSource e.tag then
      let inner ← d.slice? c.position (stop.getD d.stop)
      some ({ e with inner := String.ofList inner }, d)
    else some (e, d)
partial_fixpoint

/-- One turn of the loop over the content of an element. -/
def contentTurn? (c : Cursor) (e : Element) :
    Option (Turn (Element × Cursor) (Element × Option Nat × Cursor)) := do
  match ← c.ahead? e with
  | .passed e c => some (.again (e, c))
  | .child c =>
    let (child, c) ← c |>.element?
    some (.again (adopt e child, c))
  | .over stop c => some (.done (e, stop, c))
partial_fixpoint

/-- The element with its content from the cursor on, and where the content stopped. -/
def content? (c : Cursor) (e : Element) : Option (Element × Option Nat × Cursor) := do
  match ← (c |>.contentTurn? e) with
  | .again (e, c) => c |>.content? e
  | .done result => some result
partial_fixpoint
end

/-! ## Documents -/

section

variable {σ : Type} (visit : Element → σ → ForInStep σ)

/-- One turn of the loop over a document, which may give an element to the visitor. -/
def visitTurn? (c : Cursor) (state : σ) : Option (Turn (σ × Cursor) (σ × Cursor)) := do
  let c ← c.skipBlanks?
  if c.atEnd then some (.done (state, c))
  else if !c.sees (· = '<') then some (.again (state, ← c.advance? 1))
  else
    match ← c.skipDeclaration? with
    | some c => some (.again (state, c))
    | none =>
      let s ← c.rest?
      if "</".toList.isPrefixOf s then some (.done (state, c))
      else
        let (e, c) ← c.element?
        if e.tag = "" then some (.again (state, c))
        else
          match visit e state with
          | .yield state => some (.again (state, c))
          | .done state => some (.done (state, c))

def visit? (c : Cursor) (state : σ) : Option (σ × Cursor) := do
  match ← c.visitTurn? visit state with
  | .again (state, c) => c |>.visit? state
  | .done result => some result
partial_fixpoint

end

/-- The whole document under a root element. -/
def parse? (text : String) : Option Element := do
  let (es, _) ← (start text).visit? (fun e es => .yield (es ++ [e])) []
  some { tag := "root", children := es }

end Cursor
end Markup
end ScreenMarkup
