import ScreenMarkup.NameTable
import ScreenMarkup.Numeric.Leading

/-!
# Markup elements

An element has a lowercase tag, attributes, its trimmed text segments joined
in order, and its child elements. A button also keeps the written source
between its two tags, because there text and children may alternate.
-/

set_option autoImplicit false

namespace ScreenMarkup

structure Element where
  tag : String := ""
  attrs : NameTable := .empty
  text : String := ""
  children : List Element := []
  inner : String := ""
deriving Inhabited

namespace Element

def withAttr (e : Element) (name value : String) : Element :=
  { e with attrs := e.attrs.insert name value }

def withText (e : Element) (text : String) : Element := { e with text := text }

def withChild (e child : Element) : Element := { e with children := e.children ++ [child] }

def attr? (e : Element) (name : String) : Option String := e.attrs.get? name

def hasAttr (e : Element) (name : String) : Bool := e.attrs.contains name

def attrD (e : Element) (name fallback : String) : String := (e.attr? name).getD fallback

def attr (e : Element) (name : String) : String := e.attrD name ""

/-- The value of an attribute that is present and not empty. -/
def given? (e : Element) (name : String) : Option String :=
  (e.attr? name).filter fun v => v ≠ ""

def attrInt (e : Element) (name : String) (fallback : Int) : Int :=
  match e.given? name with
  | some v => Numeric.leadingInt v.toList
  | none => fallback

def attrFloat (e : Element) (name : String) (fallback : Binary32) : Binary32 :=
  match e.given? name with
  | some v => Numeric.leadingFloatD v.toList
  | none => fallback

def startsTrue (value : String) : Bool :=
  match value.toList with
  | c :: _ => c = 't' || c = 'T' || c = '1' || c = 'y' || c = 'Y'
  | [] => false

def attrBool (e : Element) (name : String) (fallback : Bool) : Bool :=
  match e.given? name with
  | some v => startsTrue v
  | none => fallback

def find? (e : Element) (tag : String) : Option Element := e.children.find? fun c => c.tag = tag

def findAll (e : Element) (tag : String) : List Element := e.children.filter fun c => c.tag = tag

mutual
/-- Everything below the element in document order. -/
def descendants : Element → List Element
  | ⟨_, _, _, children, _⟩ => listing children
def listing : List Element → List Element
  | [] => []
  | e :: es => e :: (descendants e ++ listing es)
end

mutual
/-- The first descendant with the tag, depth first. -/
def findDescendant? (tag : String) : Element → Option Element
  | ⟨_, _, _, children, _⟩ => findAmong? tag children
def findAmong? (tag : String) : List Element → Option Element
  | [] => none
  | e :: es =>
    if e.tag = tag then some e
    else (findDescendant? tag e).or (findAmong? tag es)
end

theorem descendants_eq (e : Element) : e.descendants = listing e.children := by
  cases e; rfl

theorem findDescendant?_eq (tag : String) (e : Element) :
    e.findDescendant? tag = findAmong? tag e.children := by
  cases e; rfl

end Element
end ScreenMarkup
