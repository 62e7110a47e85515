import ScreenMarkup.Proofs.Style.Nesting
import ScreenMarkup.Style.Rule

/-!
# Adding stylesheets

A text whose comments and blocks are all closed, with nothing but blanks after
its last rule, gives the same rules whatever text follows it. So a stylesheet
may be read in parts.
-/

set_option autoImplicit false

namespace ScreenMarkup

open Text

namespace Style

/-! ## Comments -/

/-- Every comment is closed. -/
inductive Terminated : List Char → Prop
  | nil : Terminated []
  | comment {body rest : List Char} : contains ['*', '/'] body = false → Terminated rest →
      Terminated ('/' :: '*' :: (body ++ '*' :: '/' :: rest))
  | char {c : Char} {rest : List Char} : (c = '/' → rest.head? ≠ some '*') → Terminated rest →
      Terminated (c :: rest)

theorem Uncommented.terminated {s : List Char} (h : Uncommented s) : Terminated s := by
  induction s with
  | nil => exact .nil
  | cons c s ih =>
    obtain ⟨hhead, hs⟩ := List.isChain_cons.mp h
    exact .char (fun hc hd => hhead '*' hd ⟨hc, rfl⟩) (ih hs)

/-- A comment ends at the first mark that can end it. -/
theorem afterComment_append {body : List Char} (h : contains ['*', '/'] body = false)
    (rest : List Char) : afterComment (body ++ '*' :: '/' :: rest) = dropComments rest := by
  induction body with
  | nil => rfl
  | cons c body ih =>
    have hbody : contains ['*', '/'] body = false := by
      rw [← Bool.not_eq_true]
      intro hin
      obtain ⟨x, y, rfl⟩ := (contains_iff _ _).mp hin
      rw [show c :: (x ++ ['*', '/'] ++ y) = (c :: x) ++ ['*', '/'] ++ y from rfl,
        contains_append] at h
      cases h
    rw [List.cons_append, afterComment, ih hbody]
    rintro s rfl hs
    cases body with
    | nil => cases hs
    | cons d body =>
      cases hs
      have hmark : contains ['*', '/'] ('*' :: '/' :: body) = true :=
        contains_append [] ['*', '/'] body
      rw [hmark] at h
      cases h

theorem dropComments_cons {c : Char} {s : List Char} (h : c = '/' → s.head? ≠ some '*') :
    dropComments (c :: s) = c :: dropComments s := by
  rw [dropComments]
  rintro r rfl rfl
  exact h rfl rfl

/-- No comment begins where the two texts meet, so they can be cleared one by one. -/
theorem Terminated.dropComments_append {a : List Char} (ha : Terminated a)
    (hend : (dropComments a).getLast? ≠ some '/') (b : List Char) :
    dropComments (a ++ b) = dropComments a ++ dropComments b := by
  induction ha with
  | nil => rfl
  | @comment body rest hbody _ ih =>
    have hcut (s : List Char) :
        dropComments ('/' :: '*' :: (body ++ '*' :: '/' :: s)) = ' ' :: dropComments s := by
      rw [dropComments, afterComment_append hbody]
    rw [hcut] at hend
    rw [hcut, List.cons_append, List.cons_append, List.append_assoc]
    show dropComments ('/' :: '*' :: (body ++ '*' :: '/' :: (rest ++ b))) = _
    rw [hcut, ih, List.cons_append]
    intro he
    rw [List.getLast?_cons, he] at hend
    exact hend rfl
  | @char c rest hc _ ih =>
    rw [dropComments_cons hc] at hend ⊢
    have hrest : (dropComments rest).getLast? ≠ some '/' := by
      intro he
      rw [List.getLast?_cons, he] at hend
      exact hend rfl
    have hseam : c = '/' → (rest ++ b).head? ≠ some '*' := by
      rintro rfl
      cases rest with
      | nil => exact absurd rfl hend
      | cons d rest => exact hc rfl
    rw [List.cons_append, dropComments_cons hseam, ih hrest, List.cons_append]

/-- Nothing but blanks, or blanks after a closing brace. -/
def Ended (s : List Char) : Prop :=
  (∀ c ∈ s, isBlank c = true) ∨
    ∃ rules blanks, s = rules ++ '}' :: blanks ∧ ∀ c ∈ blanks, isBlank c = true

theorem Ended.getLast?_ne {s : List Char} (h : Ended s) : s.getLast? ≠ some '/' := by
  have hslash : isBlank '/' ≠ true := by decide
  intro hl
  rcases h with hblank | ⟨rules, blanks, rfl, hblank⟩
  · exact hslash (hblank _ (List.mem_of_getLast? hl))
  · rw [List.getLast?_append, List.getLast?_cons, Option.some_or] at hl
    cases hb : blanks.getLast? with
    | none =>
      rw [hb] at hl
      cases hl
    | some c =>
      rw [hb] at hl
      cases hl
      exact hslash (hblank _ (List.mem_of_getLast? hb))

/-- How a text ends is how what follows one of its braces ends. -/
theorem Ended.of_append {x y : List Char} {c : Char} (hc : isBlank c = false)
    (h : Ended (x ++ c :: y)) : Ended y := by
  rcases h with hblank | ⟨rules, blanks, he, hblank⟩
  · have := hblank c (by simp)
    rw [hc] at this
    cases this
  · rcases List.append_eq_append_iff.mp he with ⟨z, hz, hy⟩ | ⟨z, hz, hy⟩
    · cases z with
      | nil =>
        cases hy
        exact .inl hblank
      | cons d z =>
        cases hy
        exact .inr ⟨z, blanks, rfl, hblank⟩
    · cases z with
      | nil =>
        cases hy
        exact .inl hblank
      | cons d z =>
        cases hy
        have := hblank c (by simp)
        rw [hc] at this
        cases this

end Style

namespace Rule
open Style

/-! ## Rules -/

/-- The rules of a text, one block at a time. -/
theorem ofTokens_scan {selector : List Char} (hs : '{' ∉ selector) (s : List Char) :
    ofTokens (Token.scan (selector ++ '{' :: s)) =
      (make? selector (blockTable (block 0 (Token.scan s)).1)).toList ++
        ofTokens (block 0 (Token.scan s)).2 := by
  have hopen : .braceOpen ∉ Token.scan selector := fun hin =>
    hs (Token.mem_of_mem_scan hin List.mem_cons_self)
  rw [Token.scan_append (t := .braceOpen) rfl, ofTokens_block hopen, Token.join_scan]

theorem ofTokens_scan_unopened {s : List Char} (hs : '{' ∉ s) : ofTokens (Token.scan s) = [] := by
  have hnot : ∀ t ∈ Token.scan s, (!isOpen t) = true := by
    intro t ht
    have hne : t ≠ .braceOpen := by
      rintro rfl
      exact hs (Token.mem_of_mem_scan ht List.mem_cons_self)
    simp [isOpen, hne]
  rw [ofTokens]
  split
  · rfl
  · next he =>
    rw [List.dropWhile_eq_nil_iff.mpr hnot] at he
    cases he

/-- A text has no block, or it is cut at the brace that opens its first one. -/
theorem exists_selector (s : List Char) :
    '{' ∉ s ∨ ∃ selector rest, s = selector ++ '{' :: rest ∧ '{' ∉ selector := by
  by_cases h : '{' ∈ s
  · obtain ⟨selector, rest, hs, hn⟩ := List.eq_append_cons_of_mem h
    exact .inr ⟨selector, rest, hs, hn⟩
  · exact .inl h

theorem make?_blank {blanks : List Char} (hb : ∀ c ∈ blanks, isBlank c = true)
    (selector : List Char) (properties : NameTable) :
    make? (blanks ++ selector) properties = make? selector properties := by
  have htrim : trim (blanks ++ selector) = trim selector := by
    rw [trim, trimStart, List.dropWhile_append_of_pos hb]
    rfl
  rw [make?, make?, htrim]

/-- Blanks in front belong to no selector. -/
theorem ofTokens_scan_blank {blanks : List Char} (hb : ∀ c ∈ blanks, isBlank c = true)
    (s : List Char) : ofTokens (Token.scan (blanks ++ s)) = ofTokens (Token.scan s) := by
  have hopen : '{' ∉ blanks := fun hin => absurd (hb _ hin) (by decide)
  rcases exists_selector s with hs | ⟨selector, rest, rfl, hs⟩
  · rw [ofTokens_scan_unopened hs, ofTokens_scan_unopened]
    exact fun hin => (List.mem_append.mp hin).elim hopen hs
  · rw [← List.append_assoc, ofTokens_scan, ofTokens_scan hs, make?_blank hb]
    exact fun hin => (List.mem_append.mp hin).elim hopen hs

/-- Without comments: the rules of the first text are read, and nothing of it stays for the
second. -/
theorem ofTokens_scan_append {a : List Char} (ha : Balanced a) (he : Ended a) (b : List Char) :
    ofTokens (Token.scan (a ++ b)) = ofTokens (Token.scan a) ++ ofTokens (Token.scan b) := by
  induction hn : a.length using Nat.strong_induction_on generalizing a with
  | _ n ih =>
    rcases exists_selector a with hs | ⟨selector, rest, rfl, hs⟩
    · -- a closing brace would close what was never opened
      have hblank : ∀ c ∈ a, isBlank c = true := by
        rcases he with hblank | ⟨rules, blanks, rfl, -⟩
        · exact hblank
        · exfalso
          have hclose : 0 < (rules ++ '}' :: blanks).count '}' := List.count_pos_iff.mpr (by simp)
          rw [← ha.even, List.count_eq_zero_of_not_mem hs] at hclose
          exact Nat.lt_irrefl 0 hclose
      rw [ofTokens_scan_unopened hs, ofTokens_scan_blank hblank]
      rfl
    · have hrest : depth? 1 rest = some 0 := by
        have h := balanced_iff.mp ha
        rw [depth?_append] at h
        obtain ⟨d, hd, h⟩ := Option.bind_eq_some_iff.mp h
        have heven := (depth?_eq_some_iff.mp hd).2
        rw [List.count_eq_zero_of_not_mem hs] at heven
        obtain rfl : d = 0 := by omega
        exact h
      obtain ⟨body, after, rfl, hbody, hafter⟩ := exists_matching hrest
      have hended : Ended after := by
        apply Ended.of_append (x := selector ++ '{' :: body) (c := '}') (by decide)
        simpa using he
      have hstep := ih after.length (by simp at hn; omega) hafter hended rfl
      have hblock (s : List Char) :
          block 0 (Token.scan (body ++ '}' :: s)) = (Token.scan body, Token.scan s) :=
        block_scan_append (balanced_iff.mp hbody) s
      have htext : selector ++ '{' :: (body ++ '}' :: after) ++ b =
          selector ++ '{' :: (body ++ '}' :: (after ++ b)) := by
        simp
      rw [htext, ofTokens_scan hs, ofTokens_scan hs, hblock, hblock, hstep, List.append_assoc]

/-- Reading two texts one after the other is reading them as one. -/
theorem parseAll_append {a : String} (hcomments : Terminated a.toList)
    (hblocks : Balanced (dropComments a.toList)) (hend : Ended (dropComments a.toList))
    (b : String) :
    parseAll (a ++ b) = parseAll a ++ parseAll b ∧
      ∀ sheet : Stylesheet, (sheet.add a).add b = sheet.add (a ++ b) := by
  have hparse : parseAll (a ++ b) = parseAll a ++ parseAll b := by
    rw [parseAll, String.toList_append, hcomments.dropComments_append hend.getLast?_ne,
      ofTokens_scan_append hblocks hend]
    rfl
  refine ⟨hparse, fun sheet => ?_⟩
  rw [Stylesheet.add, Stylesheet.add, Stylesheet.add, hparse, List.append_assoc]

/-- A comment with a brace, a nested block, and a second text that is broken. -/
theorem parseAll_append_broken :
    parseAll ("/* \x7d */p { color: red; q { x: 1 } }\n" ++ "*/r\x7d b \x7b w: 1") =
        parseAll "/* \x7d */p { color: red; q { x: 1 } }\n" ++ parseAll "*/r\x7d b \x7b w: 1" ∧
      ∀ sheet : Stylesheet,
        (sheet.add "/* \x7d */p { color: red; q { x: 1 } }\n").add "*/r\x7d b \x7b w: 1" =
          sheet.add ("/* \x7d */p { color: red; q { x: 1 } }\n" ++ "*/r\x7d b \x7b w: 1") := by
  have hplain : Terminated "p { color: red; q { x: 1 } }\n".toList :=
    (uncommented_of_contains (by decide)).terminated
  have hcomment : contains ['*', '/'] " \x7d ".toList = false := by decide
  have hcomments : Terminated "/* \x7d */p { color: red; q { x: 1 } }\n".toList :=
    Terminated.comment hcomment hplain
  have htext : dropComments "/* \x7d */p { color: red; q { x: 1 } }\n".toList =
      " p { color: red; q { x: 1 } }\n".toList := by
    decide
  have hblank : ∀ c ∈ ['\n'], isBlank c = true := by
    intro c hc
    rw [List.mem_singleton.mp hc]
    rfl
  have hend : Ended " p { color: red; q { x: 1 } }\n".toList :=
    .inr ⟨" p \x7b color: red; q { x: 1 } ".toList, ['\n'], rfl, hblank⟩
  exact parseAll_append hcomments (by rw [htext]; decide) (by rw [htext]; exact hend) _

end Rule
end ScreenMarkup
