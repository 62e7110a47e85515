import ScreenMarkup.NameTable
import ScreenMarkup.Text.Blank
import ScreenMarkup.Text.Search

/-!
# Lexemes of markup

Markup is a sequence of lexemes: tags, text, the verbatim bodies of scripts
and styles, and what is skipped. Every text is such a sequence. Each step
consumes at least one character, so reading ends with the text.
-/

set_option autoImplicit false

namespace ScreenMarkup.Markup
open Text

inductive Lexeme where
  | opening (tag : String) (attrs : NameTable)
  /-- An element that is complete: `<tag …/>` or a verbatim body. -/
  | whole (tag : String) (attrs : NameTable) (text : String)
  | closing
  | text (content : String)
  /-- Blanks, comments, declarations, and a `<` without a name. -/
  | skipped
deriving DecidableEq, Inhabited

def isNameChar (c : Char) : Bool := c.isAlphanum || c = '-' || c = '_' || c = ':'

/-- The bodies of these elements are kept verbatim up to their closing tag. -/
def isVerbatim (tag : String) : Bool := tag = "script" || tag = "style"

def skipBlanks (s : List Char) : List Char := s.dropWhile isAsciiBlank

/-- Skips through the first `mark`, or to the end. -/
def skipPast (mark s : List Char) : List Char :=
  match cut? mark s with
  | some parts => parts.2
  | none => []

def lowered (name : List Char) : String := String.ofList (name.map Char.toLower)

theorem skipBlanks_length_le (s : List Char) : (skipBlanks s).length ≤ s.length :=
  (List.dropWhile_sublist _).length_le

theorem skipPast_length_le (mark s : List Char) : (skipPast mark s).length ≤ s.length := by
  unfold skipPast
  split
  · next parts h =>
    have := cut?_rest_length h
    omega
  · simp

def isBareEnd (c : Char) : Bool := isAsciiBlank c || c = '>' || c = '/'

/-- A quoted value runs to the same quote or the end, a bare one to a blank, `>` or `/`. -/
def readValue : List Char → String × List Char
  | [] => ("", [])
  | c :: s =>
    if c = '"' ∨ c = '\'' then
      (String.ofList (s.takeWhile (· ≠ c)), (s.dropWhile (· ≠ c)).drop 1)
    else
      (String.ofList ((c :: s).takeWhile (!isBareEnd ·)), (c :: s).dropWhile (!isBareEnd ·))

theorem readValue_length_le (s : List Char) : (readValue s).2.length ≤ s.length := by
  cases s with
  | nil => simp [readValue]
  | cons c s =>
    simp only [readValue]
    split
    · have := (List.dropWhile_sublist (· ≠ c) (l := s)).length_le
      simp only [List.length_drop, List.length_cons]
      omega
    · exact (List.dropWhile_sublist _).length_le

/-- The value after a name: what follows `=`, or `true` without one. -/
def readAssigned (s : List Char) : String × List Char :=
  match skipBlanks s with
  | '=' :: r => readValue (skipBlanks r)
  | r => ("true", r)

theorem readAssigned_length_le (s : List Char) : (readAssigned s).2.length ≤ s.length := by
  have h := skipBlanks_length_le s
  unfold readAssigned
  split
  · next r hr =>
    have := readValue_length_le (skipBlanks r)
    have := skipBlanks_length_le r
    rw [hr, List.length_cons] at h
    omega
  · exact h

/-- The attributes up to `>`, `/` or the end. A character that starts no name is stepped over. -/
def readAttrs (s : List Char) : List (String × String) × List Char :=
  match _h : skipBlanks s with
  | [] => ([], [])
  | c :: r =>
    if c = '>' ∨ c = '/' then ([], c :: r)
    else if isNameChar c then
      let name := lowered ((c :: r).takeWhile isNameChar)
      let assigned := readAssigned (r.dropWhile isNameChar)
      let more := readAttrs assigned.2
      ((name, assigned.1) :: more.1, more.2)
    else readAttrs r
termination_by s.length
decreasing_by
  · have h1 := skipBlanks_length_le s
    have h2 := readAssigned_length_le (r.dropWhile isNameChar)
    have h3 := (List.dropWhile_sublist isNameChar (l := r)).length_le
    rw [_h, List.length_cons] at h1
    omega
  · have h1 := skipBlanks_length_le s
    rw [_h, List.length_cons] at h1
    omega

theorem readAttrs_length_le (s : List Char) : (readAttrs s).2.length ≤ s.length := by
  fun_induction readAttrs s with
  | case1 => simp
  | case2 s c r h => rw [← h]; exact skipBlanks_length_le s
  | case3 s c r h _ _ _ assigned more ih =>
    have h1 := skipBlanks_length_le s
    have h2 := readAssigned_length_le (r.dropWhile isNameChar)
    have h3 := (List.dropWhile_sublist isNameChar (l := r)).length_le
    have h4 : more.2.length ≤ assigned.2.length := ih
    rw [h, List.length_cons] at h1
    show more.2.length ≤ s.length
    exact Nat.le_trans h4 (Nat.le_trans h2 (by omega))
  | case4 s c r h _ _ ih =>
    have h1 := skipBlanks_length_le s
    rw [h, List.length_cons] at h1
    omega

/-- A verbatim body and what follows its closing tag; unclosed, it is all the rest. -/
def readVerbatim (tag : String) (s : List Char) : List Char × List Char :=
  (cut? ("</".toList ++ tag.toList ++ ['>']) s).getD (s, [])

theorem readVerbatim_length_le (tag : String) (s : List Char) :
    (readVerbatim tag s).2.length ≤ s.length := by
  unfold readVerbatim
  cases h : cut? ("</".toList ++ tag.toList ++ ['>']) s with
  | none => simp
  | some parts =>
    have := cut?_rest_length h
    simp only [Option.getD_some]
    omega

/-- The end of a start tag: `/` with an optional `>`, an optional `>`, or nothing. -/
def readTagEnd (tag : String) (attrs : NameTable) : List Char → Lexeme × List Char
  | '/' :: '>' :: r => (.whole tag attrs "", r)
  | '/' :: r => (.whole tag attrs "", r)
  | s =>
    let body := match s with
      | '>' :: r => r
      | r => r
    if isVerbatim tag then
      let (text, rest) := readVerbatim tag body
      (.whole tag attrs (String.ofList text), rest)
    else (.opening tag attrs, body)

theorem readTagEnd_length_le (tag : String) (attrs : NameTable) (s : List Char) :
    (readTagEnd tag attrs s).2.length ≤ s.length := by
  unfold readTagEnd
  split
  · simp only [List.length_cons]; omega
  · simp only [List.length_cons]; omega
  · have hbody : ∀ body : List Char, body.length ≤ s.length →
        (if isVerbatim tag then
          (Lexeme.whole tag attrs (String.ofList (readVerbatim tag body).1),
            (readVerbatim tag body).2)
        else (Lexeme.opening tag attrs, body)).2.length ≤ s.length := by
      intro body hb
      have := readVerbatim_length_le tag body
      split
      · simp only; omega
      · exact hb
    split
    · exact hbody _ (by simp)
    · exact hbody _ (Nat.le_refl _)

/-- A start tag from its name on; without a name only the `<` and the blanks are consumed. -/
def readStart (s : List Char) : Lexeme × List Char :=
  if s.takeWhile isNameChar = [] then (.skipped, s)
  else
    readTagEnd (lowered (s.takeWhile isNameChar))
      (NameTable.ofList (readAttrs (s.dropWhile isNameChar)).1)
      (readAttrs (s.dropWhile isNameChar)).2

theorem readStart_length_le (s : List Char) : (readStart s).2.length ≤ s.length := by
  unfold readStart
  split
  · exact Nat.le_refl _
  · exact Nat.le_trans (readTagEnd_length_le _ _ _)
      (Nat.le_trans (readAttrs_length_le _) (List.dropWhile_sublist _).length_le)

/-- What begins with `<`; `s` is the text after it. -/
def readTag : List Char → Lexeme × List Char
  | '!' :: '-' :: '-' :: r => (.skipped, skipPast "-->".toList r)
  | '!' :: r => (.skipped, skipPast ['>'] r)
  | '?' :: r => (.skipped, skipPast ['>'] r)
  | '/' :: r => (.closing, skipPast ['>'] r)
  | s => readStart (skipBlanks s)

theorem readTag_length_le (s : List Char) : (readTag s).2.length ≤ s.length := by
  have hskip (mark r : List Char) (front : Nat) : (skipPast mark r).length ≤ r.length + front :=
    Nat.le_trans (skipPast_length_le mark r) (Nat.le_add_right _ _)
  unfold readTag
  split
  · exact hskip _ _ 3
  · exact hskip _ _ 1
  · exact hskip _ _ 1
  · exact hskip _ _ 1
  · exact Nat.le_trans (readStart_length_le _) (skipBlanks_length_le _)

/-- The lexeme at the start of `c :: s` and the text after it. -/
def next (c : Char) (s : List Char) : Lexeme × List Char :=
  if isAsciiBlank c then (.skipped, skipBlanks s)
  else if c = '<' then readTag s
  else (.text (String.ofList (trim (c :: s.takeWhile (· ≠ '<')))), s.dropWhile (· ≠ '<'))

theorem next_length_le (c : Char) (s : List Char) : (next c s).2.length ≤ s.length := by
  unfold next
  split
  · exact skipBlanks_length_le s
  · split
    · exact readTag_length_le s
    · exact (List.dropWhile_sublist _).length_le

/-- The lexemes of a text, each with the text that follows it. -/
def scan : List Char → List (Lexeme × List Char)
  | [] => []
  | c :: s => next c s :: scan (next c s).2
termination_by s => s.length
decreasing_by exact Nat.lt_succ_of_le (next_length_le c s)

end ScreenMarkup.Markup
