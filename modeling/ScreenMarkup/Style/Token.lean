import ScreenMarkup.Text.Search

/-!
# Stylesheet tokens

A stylesheet is cut into its four punctuation characters and the runs of
everything else. The tokens of a text, written one after the other, are the
text.
-/

set_option autoImplicit false

namespace ScreenMarkup.Style

inductive Token where
  | braceOpen | braceClose | colon | semicolon
  | chunk (text : List Char)
deriving DecidableEq, Inhabited

namespace Token

def text : Token → List Char
  | braceOpen => ['{']
  | braceClose => ['}']
  | colon => [':']
  | semicolon => [';']
  | chunk s => s

def punctuation? (c : Char) : Option Token :=
  if c = '{' then some braceOpen
  else if c = '}' then some braceClose
  else if c = ':' then some colon
  else if c = ';' then some semicolon
  else none

/-- Puts a character that is no punctuation in front. -/
def extend (c : Char) : List Token → List Token
  | chunk s :: ts => chunk (c :: s) :: ts
  | ts => chunk [c] :: ts

def scan : List Char → List Token
  | [] => []
  | c :: s =>
    match punctuation? c with
    | some t => t :: scan s
    | none => extend c (scan s)

/-- The text that a run of tokens was cut from. -/
def join (ts : List Token) : List Char := ts.flatMap text

/-- The byte offsets where each token starts and ends, when the first starts at `here`. -/
def spans (here : Nat) : List Token → List (Token × Nat × Nat)
  | [] => []
  | t :: ts => (t, here, here + Text.byteSize t.text) :: spans (here + Text.byteSize t.text) ts

theorem join_extend (c : Char) (ts : List Token) : join (extend c ts) = c :: join ts := by
  unfold extend
  split <;> simp [join, text]

theorem punctuation?_text {c : Char} {t : Token} (h : punctuation? c = some t) : t.text = [c] := by
  unfold punctuation? at h
  split at h
  · cases h; simp_all [text]
  split at h
  · cases h; simp_all [text]
  split at h
  · cases h; simp_all [text]
  split at h
  · cases h; simp_all [text]
  · simp at h

/-- Nothing is lost in cutting. -/
theorem join_scan (s : List Char) : join (scan s) = s := by
  induction s with
  | nil => rfl
  | cons c s ih =>
    unfold scan
    split
    · next t h =>
      show t.text ++ join (scan s) = c :: s
      rw [punctuation?_text h, ih]
      rfl
    · rw [join_extend, ih]

end Token

def tokens (css : String) : List (Token × Nat × Nat) := Token.spans 0 (Token.scan css.toList)

mutual
/-- Replaces every comment by a blank; an unclosed one runs to the end. -/
def dropComments : List Char → List Char
  | '/' :: '*' :: s => ' ' :: afterComment s
  | c :: s => c :: dropComments s
  | [] => []
def afterComment : List Char → List Char
  | '*' :: '/' :: s => dropComments s
  | _ :: s => afterComment s
  | [] => []
end

end ScreenMarkup.Style
