import ScreenMarkup.Style.Basic
import ScreenMarkup.Text.Blank
import ScreenMarkup.Text.Search

/-!
# Markdown

A small Markdown is shown as a list of spans, each a text in one font and one
color. Lines are headings, bullets, numbered items or plain text; bullets and
plain text may hold bold, italic and code. Unclosed markers stay as written.
-/

set_option autoImplicit false

namespace ScreenMarkup

structure Span where
  text : String
  font : Font := .small
  color : Nat
deriving DecidableEq, Inhabited

structure Theme where
  color : Nat := 0xFFFFFF
  h1 : Nat := 0xFFFFFF
  h2 : Nat := 0xDDDDDD
  accent : Nat := 0x4FC3F7
  dim : Nat := 0xAAAAAA
  code : Nat := 0x81C784
deriving DecidableEq, Inhabited

namespace Markdown
open Text

/-- A span, unless it would be empty. -/
def span (text : List Char) (font : Font) (color : Nat) : List Span :=
  if text = [] then [] else [⟨String.ofList text, font, color⟩]

/-- The marker that starts with `c`, the color of what it encloses, and the text after it. -/
def marker? (theme : Theme) (c : Char) (s : List Char) : Option (List Char × Nat × List Char) :=
  if c = '*' then
    match s with
    | '*' :: r => some (['*', '*'], theme.accent, r)
    | _ => some (['*'], theme.dim, s)
  else if c = '`' then some (['`'], theme.code, s)
  else none

theorem marker?_length {theme : Theme} {c : Char} {s : List Char}
    {m : List Char × Nat × List Char} (h : marker? theme c s = some m) :
    m.2.2.length ≤ s.length := by
  unfold marker? at h
  split at h
  · split at h <;> cases h <;> simp
  · split at h
    · cases h; simp
    · simp at h

/-- The spans of a text, after the plain characters `plain`. -/
def inline (theme : Theme) (plain : List Char) : List Char → List Span
  | [] => span plain .small theme.color
  | c :: s =>
    match _h : marker? theme c s with
    | none => inline theme (plain ++ [c]) s
    | some (mark, color, body) =>
      match _hc : cut? mark body with
      | some (enclosed, rest) =>
        span plain .small theme.color ++ span enclosed .small color ++ inline theme [] rest
      | none => span plain .small theme.color ++ inline theme mark body
termination_by s => s.length
decreasing_by
  · simp
  · have h1 := marker?_length _h
    have h2 := cut?_rest_length _hc
    simp only [List.length_cons] at h1 h2 ⊢
    omega
  · have h1 := marker?_length _h
    simp only [List.length_cons] at h1 ⊢
    omega

/-- A number with `. ` after it, and the text of the item, which is not empty. -/
def numbered? (line : List Char) : Option (List Char × List Char) :=
  let digits := line.takeWhile Char.isDigit
  match line.dropWhile Char.isDigit with
  | '.' :: ' ' :: c :: rest => if digits = [] then none else some (digits ++ ['.', ' '], c :: rest)
  | _ => none

def bullet : List Char := "  • ".toList

def line (theme : Theme) (s : List Char) : List Span :=
  match s with
  | '#' :: '#' :: '#' :: ' ' :: r => span r .small theme.h2
  | '#' :: '#' :: ' ' :: r => span r .medium theme.h2
  | '#' :: ' ' :: r => span r .large theme.h1
  | '-' :: ' ' :: r => span bullet .small theme.dim ++ inline theme [] r
  | '*' :: ' ' :: r => span bullet .small theme.dim ++ inline theme [] r
  | _ =>
    match numbered? s with
    | some (number, rest) =>
      span [' ', ' '] .small theme.color ++ span number .small theme.dim ++
        span rest .small theme.color
    | none => inline theme [] s

/-- Lines of one paragraph are separated by a line break, and a blank line gives two. -/
def lines (theme : Theme) (isFirst : Bool) : List (List Char) → List Span
  | [] => []
  | l :: ls =>
    if trim l = [] then span ['\n', '\n'] .small theme.color ++ lines theme true ls
    else
      (if isFirst then [] else span ['\n'] .small theme.color) ++ line theme l ++
        lines theme false ls

def render (text : String) (theme : Theme) : List Span :=
  if text = "" then [] else lines theme true (pieces '\n' text.toList)

end Markdown
end ScreenMarkup
