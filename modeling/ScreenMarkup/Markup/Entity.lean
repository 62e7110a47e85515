import ScreenMarkup.Numeric.Digits
import ScreenMarkup.Text.Search

/-!
# Entities

Text may write a character as a named or numeric entity. Only six names and
the ASCII numbers from 1 to 127 are known, and an entity is short: its `;`
stands less than ten bytes after its `&`. Anything else stays as written.
-/

set_option autoImplicit false

namespace ScreenMarkup.Markup
open Text Numeric

def entityNames : List (String × Char) :=
  [("lt", '<'), ("gt", '>'), ("amp", '&'), ("quot", '"'), ("apos", '\''), ("nbsp", ' ')]

/-- The `;` of an entity is at most this many bytes after the first byte of its body. -/
def entityBodyLimit : Nat := 8

/-- The number after `#`. -/
def readCode? : List Char → Option Nat
  | 'x' :: hex => readHex? hex
  | 'X' :: hex => readHex? hex
  | decimal => readDecimal? decimal

/-- The character that an entity body, the text between `&` and `;`, stands for. -/
def entityChar? : List Char → Option Char
  | '#' :: number => do
    let code ← readCode? number
    if 1 ≤ code ∧ code ≤ 127 then some (Char.ofNat code) else none
  | name => entityNames.lookup (String.ofList name)

/-- The entity that follows an `&`, and the text after it. -/
def readEntity? (s : List Char) : Option (Char × List Char) := do
  let (body, rest) ← cut? [';'] s
  if byteSize body ≤ entityBodyLimit then
    let c ← entityChar? body
    some (c, rest)
  else none

theorem readEntity?_length {s rest : List Char} {c : Char} (h : readEntity? s = some (c, rest)) :
    rest.length < s.length := by
  simp only [readEntity?, Option.bind_eq_bind, Option.bind_eq_some_iff] at h
  obtain ⟨⟨body, r⟩, hcut, h⟩ := h
  have hl : r.length + 1 ≤ s.length := cut?_rest_length hcut
  split at h
  · obtain ⟨_, _, h⟩ := Option.bind_eq_some_iff.1 h
    cases h
    exact hl
  · simp at h

/-- Replaces every entity by its character, from left to right. -/
def decode : List Char → List Char
  | [] => []
  | c :: s =>
    if c = '&' then
      match _h : readEntity? s with
      | some (d, rest) => d :: decode rest
      | none => '&' :: decode s
    else c :: decode s
termination_by s => s.length
decreasing_by
  · have := readEntity?_length _h
    simp only [List.length_cons]; omega
  · simp
  · simp

def decodeText (text : String) : String := String.ofList (decode text.toList)

end ScreenMarkup.Markup
