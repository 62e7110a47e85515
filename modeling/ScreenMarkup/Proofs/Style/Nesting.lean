import Mathlib.Data.List.Infix
import ScreenMarkup.Proofs.Style.RoundTrip

/-!
# Nested braces

A text is followed by how many blocks are open. Where no brace closes more than
was opened, the block that a brace opens is the text up to the brace that
brings the depth back, or all of it when there is none.
-/

set_option autoImplicit false

namespace ScreenMarkup
namespace Style

/-! ## Depth -/

/-- The number of open blocks after a text, unless it closes more than are open. -/
def depth? (d : Nat) : List Char → Option Nat
  | [] => some d
  | c :: s =>
    if c = '{' then depth? (d + 1) s
    else if c = '}' then
      match d with
      | 0 => none
      | e + 1 => depth? e s
    else depth? d s

@[simp] theorem depth?_nil (d : Nat) : depth? d [] = some d := rfl

@[simp] theorem depth?_open (d : Nat) (s : List Char) : depth? d ('{' :: s) = depth? (d + 1) s :=
  rfl

@[simp] theorem depth?_close_zero (s : List Char) : depth? 0 ('}' :: s) = none := rfl

@[simp] theorem depth?_close (d : Nat) (s : List Char) : depth? (d + 1) ('}' :: s) = depth? d s :=
  rfl

theorem depth?_other {c : Char} (hopen : c ≠ '{') (hclose : c ≠ '}') (d : Nat) (s : List Char) :
    depth? d (c :: s) = depth? d s := by
  simp only [depth?, if_neg hopen, if_neg hclose]

theorem depth?_append (d : Nat) (s t : List Char) :
    depth? d (s ++ t) = (depth? d s).bind fun e => depth? e t := by
  induction s generalizing d with
  | nil => rfl
  | cons c s ih =>
    by_cases hopen : c = '{'
    · subst hopen
      exact ih (d + 1)
    by_cases hclose : c = '}'
    · subst hclose
      cases d with
      | zero => rfl
      | succ e => exact ih e
    · rw [List.cons_append, depth?_other hopen hclose, depth?_other hopen hclose, ih]

theorem depth?_cons_eq_some_iff {c : Char} {d e : Nat} {s : List Char} :
    depth? d (c :: s) = some e ↔ ∃ k, depth? d [c] = some k ∧ depth? k s = some e := by
  rw [← List.singleton_append, depth?_append, Option.bind_eq_some_iff]

/-- The depth is a count of braces, and it is defined when no beginning closes too much. -/
theorem depth?_eq_some_iff {d e : Nat} {s : List Char} :
    depth? d s = some e ↔
      (∀ t, t <+: s → t.count '}' ≤ d + t.count '{') ∧ d + s.count '{' = e + s.count '}' := by
  induction s generalizing d with
  | nil => simp
  | cons c s ih =>
    have hbegin : (∀ t, t <+: c :: s → t.count '}' ≤ d + t.count '{') ↔
        ∀ t, t <+: s → (c :: t).count '}' ≤ d + (c :: t).count '{' := by
      constructor
      · intro h t ht
        exact h (c :: t) (List.cons_prefix_cons.mpr ⟨rfl, ht⟩)
      · intro h t ht
        cases t with
        | nil => simp
        | cons b t =>
          obtain ⟨rfl, hs⟩ := List.cons_prefix_cons.mp ht
          exact h t hs
    rw [hbegin]
    by_cases hopen : c = '{'
    · subst hopen
      rw [depth?_open, ih]
      simp only [List.count_cons_self, List.count_cons_of_ne (by decide : '{' ≠ '}')]
      constructor <;> rintro ⟨h, heven⟩ <;>
        exact ⟨fun t ht => by have := h t ht; omega, by omega⟩
    by_cases hclose : c = '}'
    · subst hclose
      simp only [List.count_cons_self, List.count_cons_of_ne (by decide : '}' ≠ '{')]
      cases d with
      | zero =>
        rw [depth?_close_zero]
        refine iff_of_false (by simp) ?_
        rintro ⟨h, -⟩
        have := h [] List.nil_prefix
        simp at this
      | succ d =>
        rw [depth?_close, ih]
        constructor <;> rintro ⟨h, heven⟩ <;>
          exact ⟨fun t ht => by have := h t ht; omega, by omega⟩
    · rw [depth?_other hopen hclose, ih]
      simp only [List.count_cons_of_ne hopen, List.count_cons_of_ne hclose]

/-- No brace closes more than was opened before it. -/
def Nested (s : List Char) : Prop := ∀ t, t <+: s → t.count '}' ≤ t.count '{'

/-- In the end every block is closed. -/
structure Balanced (s : List Char) : Prop where
  nested : Nested s
  even : s.count '{' = s.count '}'

theorem nested_iff {s : List Char} : Nested s ↔ ∃ d, depth? 0 s = some d := by
  constructor
  · intro h
    refine ⟨s.count '{' - s.count '}', depth?_eq_some_iff.mpr ⟨?_, ?_⟩⟩
    · simpa [Nested] using h
    · have := h s List.prefix_rfl
      omega
  · rintro ⟨d, hd⟩ t ht
    simpa using (depth?_eq_some_iff.mp hd).1 t ht

theorem balanced_iff {s : List Char} : Balanced s ↔ depth? 0 s = some 0 := by
  constructor
  · rintro ⟨hn, heven⟩
    exact depth?_eq_some_iff.mpr ⟨by simpa [Nested] using hn, by simpa using heven⟩
  · intro h
    exact ⟨nested_iff.mpr ⟨0, h⟩, by simpa using (depth?_eq_some_iff.mp h).2⟩

instance (s : List Char) : Decidable (Balanced s) := decidable_of_iff _ balanced_iff.symm

theorem depth?_add {d e : Nat} {s : List Char} (h : depth? d s = some e) (k : Nat) :
    depth? (d + k) s = some (e + k) := by
  obtain ⟨hn, heven⟩ := depth?_eq_some_iff.mp h
  refine depth?_eq_some_iff.mpr ⟨fun t ht => ?_, by omega⟩
  have := hn t ht
  omega

/-- A text closes the blocks that are open before it, or it closes no more than are open. -/
theorem depth?_cases (d : Nat) (s : List Char) :
    (∃ body rest, s = body ++ '}' :: rest ∧ depth? d body = some 0) ∨ ∃ e, depth? d s = some e := by
  induction s generalizing d with
  | nil => exact .inr ⟨d, rfl⟩
  | cons c s ih =>
    by_cases hopen : c = '{'
    · subst hopen
      rcases ih (d + 1) with ⟨body, rest, rfl, hb⟩ | h
      · exact .inl ⟨'{' :: body, rest, rfl, hb⟩
      · exact .inr h
    by_cases hclose : c = '}'
    · subst hclose
      cases d with
      | zero => exact .inl ⟨[], s, rfl, rfl⟩
      | succ d =>
        rcases ih d with ⟨body, rest, rfl, hb⟩ | h
        · exact .inl ⟨'}' :: body, rest, rfl, hb⟩
        · exact .inr h
    · rcases ih d with ⟨body, rest, rfl, hb⟩ | ⟨e, he⟩
      · exact .inl ⟨c :: body, rest, rfl, by rwa [depth?_other hopen hclose]⟩
      · exact .inr ⟨e, by rwa [depth?_other hopen hclose]⟩

/-- Where one block more is open before a text than after it, one of its braces closes it. -/
theorem exists_matching {s : List Char} (h : depth? 1 s = some 0) :
    ∃ body rest, s = body ++ '}' :: rest ∧ Balanced body ∧ Balanced rest := by
  rcases depth?_cases 0 s with ⟨body, rest, rfl, hb⟩ | ⟨e, he⟩
  · refine ⟨body, rest, rfl, balanced_iff.mpr hb, balanced_iff.mpr ?_⟩
    rw [depth?_append, depth?_add hb 1] at h
    exact h
  · rw [depth?_add he 1] at h
    cases h

end Style

namespace Rule
open Style

/-! ## Blocks -/

/-- The tokens of a text with one character more in front. -/
def prepend (c : Char) (ts : List Token) : List Token :=
  match Token.punctuation? c with
  | some t => t :: ts
  | none => Token.extend c ts

theorem scan_cons (c : Char) (s : List Char) : Token.scan (c :: s) = prepend c (Token.scan s) := rfl

theorem block_extend (d : Nat) (c : Char) (ts : List Token) :
    block d (Token.extend c ts) = (block d ts).map (Token.extend c) id := by
  cases ts with
  | nil => rfl
  | cons t ts =>
    cases t with
    | chunk s => rfl
    | braceClose => cases d <;> rfl
    | _ => rfl

theorem prepend_plain {c : Char} (hopen : c ≠ '{') (hclose : c ≠ '}') (hcolon : c ≠ ':')
    (hsemi : c ≠ ';') (ts : List Token) : prepend c ts = Token.extend c ts := by
  have hplain : Token.punctuation? c = none := by
    simp [Token.punctuation?, hopen, hclose, hcolon, hsemi]
  rw [prepend, hplain]

/-- A character that does not end the block belongs to it. -/
theorem block_prepend {c : Char} {d e : Nat} (he : depth? d [c] = some e) (ts : List Token) :
    block d (prepend c ts) = (block e ts).map (prepend c) id := by
  by_cases hopen : c = '{'
  · subst hopen
    cases he
    rfl
  by_cases hclose : c = '}'
  · subst hclose
    cases d with
    | zero => cases he
    | succ d =>
      cases he
      rfl
  rw [depth?_other hopen hclose] at he
  cases he
  by_cases hcolon : c = ':'
  · subst hcolon
    rfl
  by_cases hsemi : c = ';'
  · subst hsemi
    rfl
  · have hprepend : prepend c = Token.extend c :=
      funext (prepend_plain hopen hclose hcolon hsemi)
    rw [hprepend, block_extend]

/-- A block ends at the brace that brings the depth back, whatever follows it. -/
theorem block_scan_append {d : Nat} {body : List Char} (h : depth? d body = some 0)
    (rest : List Char) :
    block d (Token.scan (body ++ '}' :: rest)) = (Token.scan body, Token.scan rest) := by
  induction body generalizing d with
  | nil =>
    cases h
    rfl
  | cons c body ih =>
    obtain ⟨k, hk, hbody⟩ := depth?_cons_eq_some_iff.mp h
    rw [List.cons_append, scan_cons, scan_cons, block_prepend hk, ih hbody]
    rfl

/-- A block that nothing closes is all of the text. -/
theorem block_scan {d e : Nat} {s : List Char} (h : depth? d s = some e) :
    block d (Token.scan s) = (Token.scan s, []) := by
  induction s generalizing d with
  | nil => rfl
  | cons c s ih =>
    obtain ⟨k, hk, hs⟩ := depth?_cons_eq_some_iff.mp h
    rw [scan_cons, block_prepend hk, ih hs]
    rfl

end Rule
end ScreenMarkup
