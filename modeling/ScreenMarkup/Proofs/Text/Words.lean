import Mathlib.Data.List.SplitBy
import Mathlib.Data.List.TakeWhile
import ScreenMarkup.Text.Blank

/-!
# Words of a text

Any number of ASCII blanks of any kind may stand between two words, and before
the first and after the last. Reading finds the words of every text that
spaces them so, and every text spaces its own words.
-/

set_option autoImplicit false

namespace ScreenMarkup.Text

variable {b w s : List Char} {ws : List (List Char)}

/-- The words stand in the text one after the other, with ASCII blanks between them and perhaps
at both ends. -/
inductive Spaced : List (List Char) → List Char → Prop
  | blanks {b : List Char} (hb : ∀ c ∈ b, isAsciiBlank c = true) : Spaced [] b
  | word {b w s : List Char} {ws : List (List Char)} (hb : ∀ c ∈ b, isAsciiBlank c = true)
      (hne : w ≠ []) (hw : ∀ c ∈ w, isAsciiBlank c = false)
      (hs : ∀ c ∈ s.head?, isAsciiBlank c = true) (rest : Spaced ws s) :
      Spaced (w :: ws) (b ++ (w ++ s))

theorem isChain_of_alike {x : Bool} (hs : ∀ c ∈ s, isAsciiBlank c = x) :
    s.IsChain fun a b => (isAsciiBlank a == isAsciiBlank b) = true := by
  apply List.Pairwise.isChain
  apply List.pairwise_of_forall_mem_list
  intro a ha c hc
  rw [hs a ha, hs c hc, beq_self_eq_true]

/-- A run of characters that are all blanks, or all not, is split off where the other kind or
the end of the text follows. -/
theorem words_append {x : Bool} (hne : b ≠ []) (hb : ∀ c ∈ b, isAsciiBlank c = x)
    (hs : ∀ c ∈ s.head?, isAsciiBlank c = !x) :
    words (b ++ s) = (if x then [] else [b]) ++ words s := by
  have hapart : ∀ c ∈ b.getLast?, ∀ d ∈ s.head?, (isAsciiBlank c == isAsciiBlank d) = false := by
    intro c hc d hd
    rw [hb c (List.mem_of_getLast? hc), hs d hd]
    cases x <;> rfl
  rw [words, List.splitBy_append hapart, List.splitBy_of_isChain hne (isChain_of_alike hb),
    List.filter_append]
  congr 1
  obtain ⟨c, hc⟩ := List.exists_mem_of_ne_nil b hne
  cases x with
  | true =>
    have hnone : (b.any fun c => !isAsciiBlank c) = false := by
      rw [List.any_eq_false]
      intro d hd
      rw [hb d hd]
      decide
    rw [List.filter_cons, hnone, if_neg Bool.false_ne_true, List.filter_nil, if_pos rfl]
  | false =>
    have hsome : (b.any fun c => !isAsciiBlank c) = true := by
      rw [List.any_eq_true]
      exact ⟨c, hc, by rw [hb c hc]; rfl⟩
    rw [List.filter_cons, if_pos hsome, List.filter_nil, if_neg Bool.false_ne_true]

theorem words_blanks_append (hb : ∀ c ∈ b, isAsciiBlank c = true)
    (hs : ∀ c ∈ s.head?, isAsciiBlank c = false) : words (b ++ s) = words s := by
  by_cases hne : b = []
  · rw [hne, List.nil_append]
  · rw [words_append hne hb hs, if_pos rfl, List.nil_append]

theorem words_word_append (hne : w ≠ []) (hw : ∀ c ∈ w, isAsciiBlank c = false)
    (hs : ∀ c ∈ s.head?, isAsciiBlank c = true) : words (w ++ s) = w :: words s := by
  rw [words_append hne hw hs, if_neg Bool.false_ne_true, List.singleton_append]

theorem head?_append_of_ne_nil (hne : w ≠ []) {p : Char → Prop} (hw : ∀ c ∈ w, p c) :
    ∀ c ∈ (w ++ s).head?, p c := by
  obtain ⟨d, w, rfl⟩ := List.exists_cons_of_ne_nil hne
  intro c hc
  rw [List.cons_append, List.head?_cons, Option.mem_some_iff] at hc
  exact hc ▸ hw d List.mem_cons_self

/-- Reading a text gives the words that it spaces. -/
theorem Spaced.words_eq (hs : Spaced ws s) : words s = ws := by
  induction hs with
  | @blanks b hb =>
    rw [← List.append_nil b, words_blanks_append hb (by simp)]
    rfl
  | @word b w s ws hb hne hw hhead _ ih =>
    rw [words_blanks_append hb (head?_append_of_ne_nil hne hw), words_word_append hne hw hhead, ih]

/-- A text starts with a run of blanks, or of other characters, that may be empty. -/
theorem exists_run (x : Bool) (s : List Char) :
    ∃ b t, s = b ++ t ∧ (∀ c ∈ b, isAsciiBlank c = x) ∧ ∀ c ∈ t.head?, isAsciiBlank c = !x := by
  let p : Char → Bool := fun c => isAsciiBlank c == x
  refine ⟨s.takeWhile p, s.dropWhile p, List.takeWhile_append_dropWhile.symm, ?_, ?_⟩
  · intro c hc
    have hyes : p c = true := List.mem_takeWhile_imp hc
    exact beq_iff_eq.1 hyes
  · intro c hc
    rw [← List.find?_not_eq_head?_dropWhile] at hc
    have hnot := List.find?_some (p := fun c => !p c) hc
    cases x <;> simpa [p] using hnot

/-- Every text spaces its own words. -/
theorem spaced_words (s : List Char) : Spaced (words s) s := by
  induction hn : s.length using Nat.strongRecOn generalizing s with
  | ind n ih =>
    subst hn
    obtain ⟨b, t, rfl, hb, ht⟩ := exists_run true s
    obtain ⟨w, u, rfl, hw, hu⟩ := exists_run false t
    by_cases hne : w = []
    · -- What follows the blanks starts neither with a word nor with a blank, so it is empty.
      have hnil : u = [] := by
        cases u with
        | nil => rfl
        | cons c u =>
          have hyes := hu c rfl
          have hno := ht c (by rw [hne]; rfl)
          rw [hyes] at hno
          cases hno
      rw [hne, hnil, List.append_nil, List.append_nil, (Spaced.blanks hb).words_eq]
      exact Spaced.blanks hb
    · have hshort : u.length < (b ++ (w ++ u)).length := by
        have := List.length_pos_of_ne_nil hne
        rw [List.length_append, List.length_append]
        omega
      have hspaced := Spaced.word hb hne hw hu (ih u.length hshort u rfl)
      rwa [hspaced.words_eq]

end ScreenMarkup.Text
