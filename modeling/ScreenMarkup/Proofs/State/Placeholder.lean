import ScreenMarkup.Proofs.Text.Cutting
import ScreenMarkup.State.Template

/-!
# Where a placeholder stands

A text has a placeholder for a name where the name stands in braces and is
short enough, unless the braces are part of the name of an earlier placeholder.
-/

set_option autoImplicit false

namespace ScreenMarkup.Template
open Text

variable {s before name rest : List Char} {c : Char}

theorem readName?_eq_some : readName? s = some (name, rest) ↔
    s = name ++ '}' :: rest ∧ '}' ∉ name ∧ byteSize name ≤ nameLimit := by
  rw [readName?, Option.filter_eq_some_iff, cut?_singleton]
  simp only [decide_eq_true_eq]
  tauto

/-- An opening brace of `before` starts a placeholder that reaches over the name after it. -/
def Covered (before name : List Char) : Prop :=
  ∃ u v, before = u ++ '{' :: v ∧ '}' ∉ v ∧ byteSize (v ++ '{' :: name) ≤ nameLimit

/-- The name stands in braces somewhere in the text, and there it is a placeholder. -/
def Stands (s name : List Char) : Prop :=
  '}' ∉ name ∧ byteSize name ≤ nameLimit ∧
    ∃ before after, s = before ++ '{' :: (name ++ '}' :: after) ∧ ¬Covered before name

theorem not_covered_nil : ¬Covered [] name := by
  rintro ⟨u, v, he, -⟩
  exact List.append_ne_nil_of_right_ne_nil u (List.cons_ne_nil _ v) he.symm

theorem covered_cons : Covered (c :: before) name ↔
    (c = '{' ∧ '}' ∉ before ∧ byteSize (before ++ '{' :: name) ≤ nameLimit) ∨
      Covered before name := by
  constructor
  · rintro ⟨u, v, he, hv, hl⟩
    cases u with
    | nil =>
      cases he
      exact .inl ⟨rfl, hv, hl⟩
    | cons d u =>
      cases he
      exact .inr ⟨u, v, rfl, hv, hl⟩
  · rintro (⟨rfl, hv, hl⟩ | ⟨u, v, rfl, hv, hl⟩)
    · exact ⟨[], before, rfl, hv, hl⟩
    · exact ⟨c :: u, v, rfl, hv, hl⟩

/-- No placeholder reaches over a closing brace. -/
theorem covered_closed (n : List Char) :
    Covered (n ++ '}' :: before) name ↔ Covered before name := by
  induction n with
  | nil =>
    rw [List.nil_append, covered_cons]
    exact or_iff_right fun h => absurd h.1 (by decide)
  | cons c n ih =>
    rw [List.cons_append, covered_cons, ih]
    exact or_iff_right fun h => h.2.1 (List.mem_append_right n List.mem_cons_self)

theorem not_stands_nil : ¬Stands [] name := by
  rintro ⟨-, -, u, v, he, -⟩
  exact List.append_ne_nil_of_right_ne_nil u (List.cons_ne_nil _ _) he.symm

/-- After a placeholder the search for the next one starts anew. -/
theorem stands_placeholder {n : List Char} (hn : '}' ∉ n) (hl : byteSize n ≤ nameLimit)
    (rest : List Char) :
    Stands ('{' :: (n ++ '}' :: rest)) name ↔ name = n ∨ Stands rest name := by
  constructor
  · rintro ⟨hname, hshort, a, b, he, hcov⟩
    cases a with
    | nil => exact .inl (first_cut hn hname (List.cons.inj he).2).1.symm
    | cons c a =>
      obtain ⟨rfl, hrest⟩ := List.cons.inj he
      replace hrest : n ++ '}' :: rest = a ++ '{' :: (name ++ '}' :: b) := hrest
      by_cases ha : '}' ∈ a
      · -- the name stands behind the first closing brace, which is the one of `n`
        obtain ⟨a₁, a₂, rfl, ha₁⟩ := List.eq_append_cons_of_mem ha
        rw [List.append_assoc, List.cons_append] at hrest
        obtain ⟨-, rfl⟩ := first_cut hn ha₁ hrest
        rw [← List.cons_append, covered_closed] at hcov
        exact .inr ⟨hname, hshort, a₂, b, rfl, hcov⟩
      · have hin : '}' ∉ a ++ '{' :: name := by simp [ha, hname]
        rw [← List.cons_append, ← List.append_assoc] at hrest
        obtain ⟨rfl, -⟩ := first_cut hn hin hrest
        exact absurd (covered_cons.mpr (.inl ⟨rfl, ha, hl⟩)) hcov
  · rintro (rfl | ⟨hname, hshort, a, b, rfl, hcov⟩)
    · exact ⟨hn, hl, [], rest, rfl, not_covered_nil⟩
    · refine ⟨hname, hshort, '{' :: n ++ '}' :: a, b, by simp, ?_⟩
      rwa [covered_closed]

/-- A character that opens no placeholder is passed over. -/
theorem stands_literal (hc : c = '{' → readName? s = none) :
    Stands (c :: s) name ↔ Stands s name := by
  constructor
  · rintro ⟨hname, hshort, a, b, he, hcov⟩
    cases a with
    | nil =>
      obtain ⟨rfl, rfl⟩ := List.cons.inj he
      have hread : readName? (name ++ '}' :: b) = some (name, b) :=
        readName?_eq_some.mpr ⟨rfl, hname, hshort⟩
      rw [hc rfl] at hread
      cases hread
    | cons d a =>
      obtain ⟨rfl, rfl⟩ := List.cons.inj he
      exact ⟨hname, hshort, a, b, rfl, fun h => hcov (covered_cons.mpr (.inr h))⟩
  · rintro ⟨hname, hshort, a, b, rfl, hcov⟩
    refine ⟨hname, hshort, c :: a, b, rfl, fun h => ?_⟩
    rcases covered_cons.mp h with ⟨rfl, ha, hl⟩ | h
    · have hread : readName? (a ++ '{' :: (name ++ '}' :: b)) = some (a ++ '{' :: name, b) :=
        readName?_eq_some.mpr ⟨by simp, by simp [ha, hname], hl⟩
      rw [hc rfl] at hread
      cases hread
    · exact hcov h

theorem placeholder_mem_scan : .placeholder name ∈ scan s ↔ Stands s name := by
  fun_induction scan s with
  | case1 => exact iff_of_false List.not_mem_nil not_stands_nil
  | case2 s n rest hr ih =>
    obtain ⟨rfl, hn, hl⟩ := readName?_eq_some.mp hr
    rw [List.mem_cons, Piece.placeholder.injEq, ih, stands_placeholder hn hl]
  | case3 s hr ih =>
    rw [List.mem_cons, ih, stands_literal fun _ => hr]
    exact or_iff_right fun h => nomatch h
  | case4 c s hc ih =>
    rw [List.mem_cons, ih, stands_literal fun h => absurd h hc]
    exact or_iff_right fun h => nomatch h

end ScreenMarkup.Template
