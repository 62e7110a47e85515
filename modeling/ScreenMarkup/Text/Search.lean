/-!
# Searching and cutting text

A text is cut at the first occurrence of a mark. Nothing is lost by a cut:
the part before, the mark and the part after give the text back.
-/

set_option autoImplicit false

namespace ScreenMarkup.Text

/-- What follows `lead` in a text that begins with it. -/
def after? : (lead s : List Char) → Option (List Char)
  | [], s => some s
  | _ :: _, [] => none
  | p :: lead, c :: s => if p = c then after? lead s else none

/-- The parts before and after the first occurrence of `mark`. -/
def cut? (mark : List Char) : List Char → Option (List Char × List Char)
  | [] => if mark = [] then some ([], []) else none
  | c :: s =>
    match after? mark (c :: s) with
    | some rest => some ([], rest)
    | none => (cut? mark s).map fun parts => (c :: parts.1, parts.2)

def contains (mark s : List Char) : Bool := (cut? mark s).isSome

/-- The pieces between the occurrences of the character `mark`. -/
def pieces (mark : Char) : List Char → List (List Char)
  | [] => [[]]
  | c :: s =>
    match pieces mark s with
    | [] => [[]]
    | piece :: rest => if c = mark then [] :: piece :: rest else (c :: piece) :: rest

/-- The text without one leading `/`. -/
def dropSlash (path : String) : String :=
  match path.toList with
  | '/' :: s => String.ofList s
  | _ => path

/-- The number of bytes of the text in UTF-8. -/
def byteSize (s : List Char) : Nat := s.foldr (fun c n => c.utf8Size + n) 0

theorem after?_eq_some {lead s rest : List Char} (h : after? lead s = some rest) :
    s = lead ++ rest := by
  fun_induction after? lead s with
  | case1 s => simpa using h
  | case2 => simp at h
  | case3 lead c s ih => simp [ih h]
  | case4 => simp at h

@[simp] theorem after?_append (lead rest : List Char) : after? lead (lead ++ rest) = some rest := by
  induction lead with
  | nil => rfl
  | cons p lead ih => simp [after?, ih]

theorem cut?_eq_some {mark s : List Char} {parts : List Char × List Char}
    (h : cut? mark s = some parts) : s = parts.1 ++ mark ++ parts.2 := by
  induction s generalizing parts with
  | nil =>
    by_cases hm : mark = [] <;> simp [cut?, hm] at h
    subst h; simp [hm]
  | cons c s ih =>
    unfold cut? at h
    split at h
    · next rest hr =>
      cases h
      simpa using after?_eq_some hr
    · obtain ⟨p, hp, rfl⟩ := Option.map_eq_some_iff.1 h
      simp [ih hp]

theorem cut?_rest_length {mark s : List Char} {parts : List Char × List Char}
    (h : cut? mark s = some parts) : parts.2.length + mark.length ≤ s.length := by
  have := congrArg List.length (cut?_eq_some h)
  simp at this
  omega

end ScreenMarkup.Text
