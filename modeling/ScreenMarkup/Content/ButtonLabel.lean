import ScreenMarkup.Markup.Element

/-!
# Button labels

A button shows one label. What is nested inside it is folded into that label:
a single nested label lends its text and its attributes, anything else the
text outside of all tags.
-/

set_option autoImplicit false

namespace ScreenMarkup

structure ButtonLabel where
  text : String := ""
  font : Int := 0
  color : String := ""
  textAlign : String := ""
deriving DecidableEq, Inhabited

namespace ButtonLabel
open Text

/-- The characters outside of `<…>`. -/
def outsideTags (inTag : Bool) : List Char → List Char
  | [] => []
  | c :: s =>
    if c = '<' then outsideTags true s
    else if c = '>' then outsideTags false s
    else if inTag then outsideTags true s
    else c :: outsideTags false s

/-- The texts of an element and of everything below it that has one. -/
def texts (e : Element) : List String :=
  ((e :: e.descendants).map (·.text)).filter (· ≠ "")

def ofElement (button : Element) : ButtonLabel :=
  if button.children.isEmpty then { text := button.text }
  else
    match button.descendants.filter fun e => e.tag = "label" with
    | [label] =>
      let align := label.attr "text-align"
      { text := label.text
        font := label.attrInt "font" 0
        color := label.attr "color"
        textAlign := if align = "" then label.attr "align" else align }
    | _ =>
      if button.inner = "" then { text := " ".intercalate (texts button) }
      else { text := String.ofList (trim (outsideTags false button.inner.toList)) }

end ButtonLabel
end ScreenMarkup
