/-!
# Blank characters

Documents know two sets of blanks. The five ASCII blanks separate attributes
and class names. The Unicode blanks, the characters of property White_Space,
are trimmed around text and values.
-/

set_option autoImplicit false

namespace ScreenMarkup.Text

def isAsciiBlank (c : Char) : Bool :=
  c = ' ' || c = '\t' || c = '\n' || c = '\x0c' || c = '\r'

def isBlank (c : Char) : Bool :=
  let n := c.toNat
  (0x09 ≤ n && n ≤ 0x0D) || n = 0x20 || n = 0x85 || n = 0xA0 || n = 0x1680 ||
    (0x2000 ≤ n && n ≤ 0x200A) || n = 0x2028 || n = 0x2029 || n = 0x202F ||
    n = 0x205F || n = 0x3000

def trimStart (s : List Char) : List Char := s.dropWhile isBlank

def trimEnd (s : List Char) : List Char := (s.reverse.dropWhile isBlank).reverse

def trim (s : List Char) : List Char := trimEnd (trimStart s)

/-- The maximal runs of characters that are not ASCII blanks. -/
def words (s : List Char) : List (List Char) :=
  (s.splitBy fun a b => isAsciiBlank a == isAsciiBlank b).filter
    fun run => run.any fun c => !isAsciiBlank c

theorem isBlank_of_isAsciiBlank {c : Char} (h : isAsciiBlank c = true) : isBlank c = true := by
  simp only [isAsciiBlank, Bool.or_eq_true, decide_eq_true_eq] at h
  rcases h with (((h | h) | h) | h) | h <;> subst h <;> decide

end ScreenMarkup.Text
