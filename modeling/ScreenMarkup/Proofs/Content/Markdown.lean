import Mathlib.Data.List.TakeWhile
import ScreenMarkup.Content.Markdown

/-!
# What Markdown keeps

No text is lost on the way to the spans: each line gives a part of its own,
after a separator that depends only on the line before, and what is shown of
inline text differs from it in marks only. Themes choose nothing but colors.
-/

set_option autoImplicit false

namespace ScreenMarkup.Markdown
open Text

variable {theme other : Theme} {c : Char} {s t mark body plain rest : List Char} {color : Nat}
  {font : Font} {spans later : List Span}

/-! ## Spans -/

/-- The texts of the spans, one after the other. -/
def shown (spans : List Span) : List Char := spans.flatMap fun p => p.text.toList

/-- The spans apart from their colors. -/
def faces (spans : List Span) : List (String × Font) := spans.map fun p => (p.text, p.font)

def Filled (spans : List Span) : Prop := ∀ p ∈ spans, p.text ≠ ""

@[simp] theorem shown_append : shown (spans ++ later) = shown spans ++ shown later :=
  List.flatMap_append

@[simp] theorem faces_append : faces (spans ++ later) = faces spans ++ faces later :=
  List.map_append

@[simp] theorem shown_span : shown (span s font color) = s := by
  unfold span
  split
  · next hs => rw [hs]; rfl
  · simp [shown]

theorem faces_span (s : List Char) (font : Font) (color color' : Nat) :
    faces (span s font color) = faces (span s font color') := by
  unfold span
  split <;> rfl

theorem filled_span : Filled (span s font color) := by
  unfold span
  split
  · exact List.forall_mem_nil _
  · next hs =>
    rw [Filled, List.forall_mem_singleton]
    intro hempty
    exact hs (String.ofList_injective hempty)

theorem Filled.append (h : Filled spans) (hl : Filled later) : Filled (spans ++ later) :=
  List.forall_mem_append.mpr ⟨h, hl⟩

/-! ## Inline text -/

def isMark (c : Char) : Bool := c = '*' || c = '`'

def unmarked (s : List Char) : List Char := s.filter (!isMark ·)

theorem unmarked_append : unmarked (s ++ t) = unmarked s ++ unmarked t := List.filter_append ..

theorem marker?_eq_some (h : marker? theme c s = some (mark, color, body)) :
    c :: s = mark ++ body ∧ unmarked mark = [] := by
  unfold marker? at h
  split at h
  · next hc =>
    subst hc
    split at h <;> cases h <;> exact ⟨rfl, rfl⟩
  · split at h
    · next hc =>
      subst hc
      cases h
      exact ⟨rfl, rfl⟩
    · cases h

/-- Without a marker the character is none of the marks. -/
theorem marker?_eq_none : marker? theme c s = none ↔ isMark c = false := by
  unfold marker? isMark
  split
  · next hc => split <;> simp [hc]
  · next hc => split <;> simp_all

theorem marker?_other (h : marker? theme c s = some (mark, color, body)) (other : Theme) :
    ∃ color', marker? other c s = some (mark, color', body) := by
  unfold marker? at h ⊢
  split at h
  · next hstar =>
    simp only [if_pos hstar]
    split at h <;> cases h <;> exact ⟨_, rfl⟩
  · next hstar =>
    rw [if_neg hstar]
    split at h
    · next htick =>
      cases h
      exact ⟨_, if_pos htick⟩
    · cases h

theorem inline_plain (h : marker? theme c s = none) :
    inline theme plain (c :: s) = inline theme (plain ++ [c]) s := by
  rw [inline]
  split
  · rfl
  · next he =>
    rw [h] at he
    cases he

theorem inline_marker (h : marker? theme c s = some (mark, color, body)) :
    inline theme plain (c :: s) =
      match cut? mark body with
      | some (enclosed, rest) =>
        span plain .small theme.color ++ span enclosed .small color ++ inline theme [] rest
      | none => span plain .small theme.color ++ inline theme mark body := by
  rw [inline]
  split
  · next he =>
    rw [h] at he
    cases he
  · next he =>
    rw [h] at he
    cases he
    split
    · next hcut => rw [hcut]
    · next hcut => rw [hcut]

/-- What is shown differs from the text in marks only, whatever plain characters come before. -/
theorem unmarked_shown_inline (theme : Theme) (plain s : List Char) :
    unmarked (shown (inline theme plain s)) = unmarked (plain ++ s) := by
  fun_induction inline theme plain s with
  | case1 plain => rw [shown_span, List.append_nil]
  | case2 plain c s hnone ih => rw [ih, List.append_assoc, List.singleton_append]
  | case3 plain c s mark color body hmark enclosed rest hcut ih =>
    obtain ⟨htext, hm⟩ := marker?_eq_some hmark
    have hbody : body = enclosed ++ mark ++ rest := cut?_eq_some hcut
    rw [htext, hbody]
    simp only [shown_append, shown_span, unmarked_append, hm, ih, List.nil_append,
      List.append_assoc]
  | case4 plain c s mark color body hmark hcut ih =>
    obtain ⟨htext, hm⟩ := marker?_eq_some hmark
    rw [shown_append, shown_span, unmarked_append, ih, htext]
    simp only [unmarked_append, hm, List.nil_append]

/-- Text without marks is one span. -/
theorem inline_of_unmarked (hs : ∀ c ∈ s, isMark c = false) (theme : Theme) (plain : List Char) :
    inline theme plain s = span (plain ++ s) .small theme.color := by
  induction s generalizing plain with
  | nil => rw [inline, List.append_nil]
  | cons c s ih =>
    obtain ⟨hc, hs⟩ := List.forall_mem_cons.mp hs
    rw [inline_plain (marker?_eq_none.mpr hc), ih hs, List.append_assoc, List.singleton_append]

theorem filled_inline (theme : Theme) (plain s : List Char) : Filled (inline theme plain s) := by
  fun_induction inline theme plain s with
  | case1 plain => exact filled_span
  | case2 plain c s hnone ih => exact ih
  | case3 plain c s mark color body hmark enclosed rest hcut ih =>
    exact (filled_span.append filled_span).append ih
  | case4 plain c s mark color body hmark hcut ih => exact filled_span.append ih

theorem faces_inline (theme other : Theme) (plain s : List Char) :
    faces (inline theme plain s) = faces (inline other plain s) := by
  fun_induction inline theme plain s with
  | case1 plain => rw [inline, faces_span]
  | case2 plain c s hnone ih =>
    rw [ih, inline_plain (marker?_eq_none.mpr (marker?_eq_none.mp hnone))]
  | case3 plain c s mark color body hmark enclosed rest hcut ih =>
    obtain ⟨color', hother⟩ := marker?_other hmark other
    rw [inline_marker hother, hcut]
    simp only [faces_append, ih, faces_span plain _ theme.color other.color,
      faces_span enclosed _ color color']
  | case4 plain c s mark color body hmark hcut ih =>
    obtain ⟨color', hother⟩ := marker?_other hmark other
    rw [inline_marker hother, hcut]
    simp only [faces_append, ih, faces_span plain _ theme.color other.color]

/-! ## Lines -/

/-- The marks of headings. -/
def headings : List (List Char) := ["# ".toList, "## ".toList, "### ".toList]

def bullets : List (List Char) := ["- ".toList, "* ".toList]

def IsHeading (l rest : List Char) : Prop := ∃ mark ∈ headings, l = mark ++ rest

def IsBullet (l rest : List Char) : Prop := ∃ lead ∈ bullets, l = lead ++ rest

/-- A number, a point, a blank and some text. -/
def IsItem (l : List Char) : Prop :=
  ∃ number rest, number ≠ [] ∧ (∀ c ∈ number, c.isDigit = true) ∧ rest ≠ [] ∧
    l = number ++ ". ".toList ++ rest

/-- How a line is shown, by the form it has. -/
inductive Shows (theme : Theme) : List Char → List Span → Prop
  | heading {l rest : List Char} {spans : List Span} (hl : IsHeading l rest)
      (hs : shown spans = rest) : Shows theme l spans
  | bullet {l rest : List Char} (hl : IsBullet l rest) :
      Shows theme l (span bullet .small theme.dim ++ inline theme [] rest)
  | item {l : List Char} {spans : List Span} (hl : IsItem l)
      (hs : shown spans = "  ".toList ++ l) : Shows theme l spans
  | plain {l : List Char} (hheading : ∀ rest, ¬ IsHeading l rest)
      (hbullet : ∀ rest, ¬ IsBullet l rest) (hitem : ¬ IsItem l) :
      Shows theme l (inline theme [] l)

theorem numbered?_eq_some {l number : List Char} (h : numbered? l = some (number, rest)) :
    IsItem l ∧ l = number ++ rest := by
  have hl : l = l.takeWhile Char.isDigit ++ l.dropWhile Char.isDigit :=
    List.takeWhile_append_dropWhile.symm
  unfold numbered? at h
  extract_lets digits at h
  split at h
  · next c rest hrest =>
    split at h
    · cases h
    · next hne =>
      cases h
      rw [hrest] at hl
      refine ⟨⟨_, _, hne, fun d hd => List.mem_takeWhile_imp hd, List.cons_ne_nil c rest, ?_⟩, ?_⟩
      · simpa using hl
      · simpa using hl
  · cases h

theorem not_isItem_of_numbered? {l : List Char} (h : numbered? l = none) : ¬ IsItem l := by
  rintro ⟨number, rest, hne, hdigits, hrest, rfl⟩
  obtain ⟨c, rest, rfl⟩ := List.exists_cons_of_ne_nil hrest
  have htake : (number ++ ". ".toList ++ c :: rest).takeWhile Char.isDigit = number := by
    rw [List.append_assoc, List.takeWhile_append_of_pos hdigits]
    exact List.append_nil number
  have hdrop : (number ++ ". ".toList ++ c :: rest).dropWhile Char.isDigit =
      '.' :: ' ' :: c :: rest := by
    rw [List.append_assoc, List.dropWhile_append_of_pos hdigits]
    rfl
  rw [numbered?, htake, hdrop] at h
  simp [hne] at h

theorem line_shows (theme : Theme) (l : List Char) : Shows theme l (line theme l) := by
  unfold line
  split
  · exact .heading ⟨"### ".toList, by simp [headings], rfl⟩ shown_span
  · exact .heading ⟨"## ".toList, by simp [headings], rfl⟩ shown_span
  · exact .heading ⟨"# ".toList, by simp [headings], rfl⟩ shown_span
  · exact .bullet ⟨"- ".toList, by simp [bullets], rfl⟩
  · exact .bullet ⟨"* ".toList, by simp [bullets], rfl⟩
  · next hsmall hmedium hlarge hdash hstar =>
    split
    · next number rest hnumber =>
      obtain ⟨hitem, hl⟩ := numbered?_eq_some hnumber
      refine .item hitem ?_
      simp [hl]
    · next hnone =>
      refine .plain ?_ ?_ (not_isItem_of_numbered? hnone)
      · rintro rest ⟨mark, hmark, rfl⟩
        simp only [headings, List.mem_cons, List.not_mem_nil, or_false] at hmark
        rcases hmark with rfl | rfl | rfl
        · exact hlarge rest rfl
        · exact hmedium rest rfl
        · exact hsmall rest rfl
      · rintro rest ⟨lead, hlead, rfl⟩
        simp only [bullets, List.mem_cons, List.not_mem_nil, or_false] at hlead
        rcases hlead with rfl | rfl
        · exact hdash rest rfl
        · exact hstar rest rfl

theorem filled_line (theme : Theme) (l : List Char) : Filled (line theme l) := by
  unfold line
  split
  · exact filled_span
  · exact filled_span
  · exact filled_span
  · exact filled_span.append (filled_inline theme [] _)
  · exact filled_span.append (filled_inline theme [] _)
  · split
    · exact (filled_span.append filled_span).append filled_span
    · exact filled_inline theme [] l

theorem faces_line (theme other : Theme) (l : List Char) :
    faces (line theme l) = faces (line other l) := by
  unfold line
  split
  · exact faces_span _ _ _ _
  · exact faces_span _ _ _ _
  · exact faces_span _ _ _ _
  · rw [faces_append, faces_append, faces_inline theme other, faces_span _ _ _ other.dim]
  · rw [faces_append, faces_append, faces_inline theme other, faces_span _ _ _ other.dim]
  · split
    · simp only [faces_append, faces_span _ _ theme.color other.color,
        faces_span _ _ theme.dim other.dim]
    · exact faces_inline theme other [] l

/-! ## The whole text -/

/-- What separates a line that is not blank from the line before. -/
def separator (theme : Theme) : Option (List Char) → List Span
  | none => []
  | some previous => if trim previous = [] then [] else span ['\n'] .small theme.color

/-- What a line gives after the line before. -/
def part (theme : Theme) (previous : Option (List Char)) (l : List Char) : List Span :=
  if trim l = [] then span ['\n', '\n'] .small theme.color
  else separator theme previous ++ line theme l

/-- The parts of the lines in their order. -/
def parts (theme : Theme) (ls : List (List Char)) : List (List Span) :=
  List.zipWith (part theme) (none :: ls.map some) ls

theorem lines_eq (isFirst : Bool) (previous : Option (List Char)) (ls : List (List Char))
    (hs : separator theme previous = if isFirst then [] else span ['\n'] .small theme.color) :
    lines theme isFirst ls = (List.zipWith (part theme) (previous :: ls.map some) ls).flatten := by
  induction ls generalizing isFirst previous with
  | nil => rfl
  | cons l ls ih =>
    rw [List.map_cons, List.zipWith_cons_cons, List.flatten_cons, lines, part]
    by_cases hblank : trim l = []
    · rw [if_pos hblank, if_pos hblank, ih true (some l) (if_pos hblank)]
    · rw [if_neg hblank, if_neg hblank, ih false (some l) (if_neg hblank), hs]

theorem render_eq (text : String) (theme : Theme) :
    render text theme =
      if text = "" then [] else (parts theme (pieces '\n' text.toList)).flatten := by
  unfold render parts
  split
  · rfl
  · exact lines_eq true none _ rfl

theorem filled_lines (theme : Theme) (isFirst : Bool) (ls : List (List Char)) :
    Filled (lines theme isFirst ls) := by
  induction ls generalizing isFirst with
  | nil => exact List.forall_mem_nil _
  | cons l ls ih =>
    unfold lines
    split
    · exact filled_span.append (ih true)
    · refine (Filled.append ?_ (filled_line theme l)).append (ih false)
      split
      · exact List.forall_mem_nil _
      · exact filled_span

theorem faces_lines (theme other : Theme) (isFirst : Bool) (ls : List (List Char)) :
    faces (lines theme isFirst ls) = faces (lines other isFirst ls) := by
  induction ls generalizing isFirst with
  | nil => rfl
  | cons l ls ih =>
    unfold lines
    split
    · rw [faces_append, faces_append, ih true, faces_span]
    · rw [faces_append, faces_append, faces_append, faces_append, ih false, faces_line theme other]
      split
      · rfl
      · rw [faces_span]

/-- No span is empty, and a theme gives the spans their colors only. Each line gives its own part
in order: a blank line a paragraph break, and any other line, after its separator, what its form
says. Of inline text nothing is lost but marks. -/
theorem render_keeps_text (text : String) (theme other : Theme) :
    (∀ p ∈ render text theme, p.text ≠ "") ∧
      faces (render text theme) = faces (render text other) ∧
      render text theme =
        (if text = "" then [] else (parts theme (pieces '\n' text.toList)).flatten) ∧
      (∀ l, Shows theme l (line theme l)) ∧
      ∀ s, unmarked (shown (inline theme [] s)) = unmarked s ∧
        ((∀ c ∈ s, isMark c = false) → shown (inline theme [] s) = s) := by
  refine ⟨?_, ?_, render_eq text theme, line_shows theme, fun s => ⟨?_, fun hs => ?_⟩⟩
  · unfold render
    split
    · exact List.forall_mem_nil _
    · exact filled_lines theme true _
  · unfold render
    split
    · rfl
    · exact faces_lines theme other true _
  · exact unmarked_shown_inline theme [] s
  · rw [inline_of_unmarked hs, shown_span, List.nil_append]

/-- Characters that only look like Markdown are kept as they are. -/
theorem render_keeps_text_without_marks :
    (∀ c ∈ "_a_ #b 1.c".toList, isMark c = false) ∧
      shown (inline {} [] "_a_ #b 1.c".toList) = "_a_ #b 1.c".toList := by
  have hall : "_a_ #b 1.c".toList.all (!isMark ·) = true := by decide +kernel
  have hs : ∀ c ∈ "_a_ #b 1.c".toList, isMark c = false := by simpa using hall
  exact ⟨hs, ((render_keeps_text "_a_ #b 1.c" {} {}).2.2.2.2 _).2 hs⟩

end ScreenMarkup.Markdown
