import Mathlib.Data.List.Chain
import ScreenMarkup.Content.ButtonLabel
import ScreenMarkup.Proofs.Markup.Extraction
import ScreenMarkup.Proofs.Markup.Pieces

/-!
# The text of a button

The label of a button with nested elements is its source outside of `<…>`,
where a tag ends with the first `>`. The reader delimits tags with regard to
quotes. The two agree piece by piece exactly on a source in which no `<` and
`>` stands for itself.
-/

set_option autoImplicit false

namespace ScreenMarkup

open Text

namespace Markup.Piece

/-- The source that is not markup. -/
def outside (p : Piece) : List Char := if p.isMarkup then [] else p.source

end Markup.Piece

namespace ButtonLabel

open Markup (Piece IsUnmarked isUnmarked_cons join join_cons)

/-! ## Characters -/

/-- Whether the text that follows is taken to be inside of a tag. -/
def endsInTag (inTag : Bool) : List Char → Bool
  | [] => inTag
  | c :: s => endsInTag (if c = '<' then true else if c = '>' then false else inTag) s

/-- The character that leads inside of a tag, or outside. -/
def mark (inTag : Bool) : Char := if inTag then '<' else '>'

theorem eq_mark_or (c : Char) : (∃ b, c = mark b) ∨ c ≠ '<' ∧ c ≠ '>' := by
  by_cases hlt : c = '<'
  · exact .inl ⟨true, hlt⟩
  · by_cases hgt : c = '>'
    · exact .inl ⟨false, hgt⟩
    · exact .inr ⟨hlt, hgt⟩

section

variable {c : Char} (inTag b : Bool) (s t : List Char)

@[simp] theorem outsideTags_mark : outsideTags inTag (mark b :: s) = outsideTags b s := by
  cases b <;> rfl

@[simp] theorem endsInTag_mark : endsInTag inTag (mark b :: s) = endsInTag b s := by
  cases b <;> rfl

theorem outsideTags_true (hc : c ≠ '<' ∧ c ≠ '>') :
    outsideTags true (c :: s) = outsideTags true s := by
  rw [outsideTags, if_neg hc.1, if_neg hc.2, if_pos rfl]

theorem outsideTags_false (hc : c ≠ '<' ∧ c ≠ '>') :
    outsideTags false (c :: s) = c :: outsideTags false s := by
  rw [outsideTags, if_neg hc.1, if_neg hc.2, if_neg Bool.false_ne_true]

theorem endsInTag_cons (hc : c ≠ '<' ∧ c ≠ '>') :
    endsInTag inTag (c :: s) = endsInTag inTag s := by
  rw [endsInTag, if_neg hc.1, if_neg hc.2]

theorem outsideTags_append :
    outsideTags inTag (s ++ t) = outsideTags inTag s ++ outsideTags (endsInTag inTag s) t := by
  induction s generalizing inTag with
  | nil => rfl
  | cons c s ih =>
    rw [List.cons_append]
    rcases eq_mark_or c with ⟨b, rfl⟩ | hc
    · simp only [outsideTags_mark, endsInTag_mark, ih]
    · rw [endsInTag_cons inTag s hc]
      cases inTag with
      | true => rw [outsideTags_true _ hc, outsideTags_true _ hc, ih]
      | false => rw [outsideTags_false _ hc, outsideTags_false _ hc, ih, List.cons_append]

theorem outsideTags_length_le : (outsideTags inTag s).length ≤ s.length := by
  induction s generalizing inTag with
  | nil => exact Nat.le_refl _
  | cons c s ih =>
    rcases eq_mark_or c with ⟨b, rfl⟩ | hc
    · rw [outsideTags_mark]
      exact Nat.le_succ_of_le (ih b)
    · cases inTag with
      | true =>
        rw [outsideTags_true s hc]
        exact Nat.le_succ_of_le (ih true)
      | false =>
        rw [outsideTags_false s hc]
        exact Nat.succ_le_succ (ih false)

/-- A character that is dropped is missed in what is kept. -/
theorem outsideTags_ne : outsideTags inTag s ≠ c :: s := by
  intro h
  have hlength := outsideTags_length_le inTag s
  rw [h, List.length_cons] at hlength
  omega

theorem outsideTags_false_eq_self_iff : outsideTags false s = s ↔ IsUnmarked s := by
  induction s with
  | nil => simp [outsideTags, IsUnmarked]
  | cons c s ih =>
    rw [isUnmarked_cons]
    rcases eq_mark_or c with ⟨b, rfl⟩ | hc
    · rw [outsideTags_mark]
      cases b <;> simp [outsideTags_ne, mark]
    · rw [outsideTags_false s hc, List.cons.injEq, ih]
      exact ⟨fun h => ⟨hc, h.2⟩, fun h => ⟨rfl, h.2⟩⟩

/-- All of a text is kept when it stands outside of tags and has no mark. -/
theorem outsideTags_eq_self_iff (hs : s ≠ []) :
    outsideTags inTag s = s ↔ inTag = false ∧ IsUnmarked s := by
  cases inTag with
  | false => rw [outsideTags_false_eq_self_iff, and_iff_right rfl]
  | true =>
    obtain ⟨c, s, rfl⟩ := List.exists_cons_of_ne_nil hs
    rcases eq_mark_or c with ⟨b, rfl⟩ | hc
    · simp [outsideTags_ne]
    · simp [outsideTags_true s hc, outsideTags_ne]

end

/-- In a tag, `>` is followed by `<` or `>` only. -/
def Follows (c d : Char) : Prop := c = '>' → d = '<' ∨ d = '>'

theorem follows_mark (c : Char) (b : Bool) : Follows c (mark b) := by
  intro _
  cases b
  · exact .inr rfl
  · exact .inl rfl

/-- Only outside of tags a character that is no mark stands for itself. -/
theorem follows_of_ne {c : Char} (hc : c ≠ '<' ∧ c ≠ '>') (inTag : Bool) :
    Follows (mark inTag) c ↔ inTag = true := by
  cases inTag <;> simp [Follows, mark, hc]

/-- A character that is no mark may be followed by any. -/
theorem isChain_of_ne {c : Char} (hc : c ≠ '<' ∧ c ≠ '>') (s : List Char) :
    (c :: s).IsChain Follows ↔ (mark true :: s).IsChain Follows := by
  cases s with
  | nil => simp
  | cons d s => simp [List.isChain_cons_cons, Follows, hc, mark]

/-- Nothing of a text is kept when a `>` in it or before it is followed by marks only. -/
theorem outsideTags_eq_nil_iff (inTag : Bool) (s : List Char) :
    outsideTags inTag s = [] ↔ (mark inTag :: s).IsChain Follows := by
  induction s generalizing inTag with
  | nil => simp [outsideTags]
  | cons c s ih =>
    rw [List.isChain_cons_cons]
    rcases eq_mark_or c with ⟨b, rfl⟩ | hc
    · rw [outsideTags_mark, ih b, and_iff_right (follows_mark _ b)]
    · rw [follows_of_ne hc, isChain_of_ne hc, ← ih true]
      cases inTag with
      | true => rw [outsideTags_true s hc, and_iff_right rfl]
      | false => simp [outsideTags_false s hc]

/-- After a text of which nothing is kept, a tag has ended when the text ends with `>`. -/
theorem endsInTag_of_chain {inTag : Bool} {s : List Char}
    (hs : (mark inTag :: s).IsChain Follows) :
    endsInTag inTag s = false ↔ (mark inTag :: s).getLast? = some '>' := by
  induction s generalizing inTag with
  | nil => cases inTag <;> simp [endsInTag, mark]
  | cons c s ih =>
    obtain ⟨hfollows, hrest⟩ := List.isChain_cons_cons.mp hs
    rw [List.getLast?_cons_cons]
    rcases eq_mark_or c with ⟨b, rfl⟩ | hc
    · rw [endsInTag_mark, ih hrest]
    · obtain rfl := (follows_of_ne hc inTag).mp hfollows
      rw [endsInTag_cons true s hc, ih ((isChain_of_ne hc s).mp hrest)]
      cases s with
      | nil => simp [mark, hc]
      | cons d s => rw [List.getLast?_cons_cons, List.getLast?_cons_cons]

theorem endsInTag_of_isUnmarked {s : List Char} (hs : IsUnmarked s) (inTag : Bool) :
    endsInTag inTag s = inTag := by
  induction s with
  | nil => rfl
  | cons c s ih =>
    obtain ⟨hc, hrest⟩ := isUnmarked_cons.mp hs
    rw [endsInTag_cons inTag s hc, ih hrest]

/-! ## Pieces -/

/-- What is kept of each piece. -/
def kept (inTag : Bool) : List Piece → List (List Char)
  | [] => []
  | p :: ps => outsideTags inTag p.source :: kept (endsInTag inTag p.source) ps

/-- No `<` or `>` stands for itself: none stands in text, in markup a `>` is followed by `<` or `>`
only, and markup that text follows ends with `>`. -/
structure Plain (ps : List Piece) : Prop where
  text : ∀ p ∈ ps, p.isMarkup = false → IsUnmarked p.source
  markup : ∀ p ∈ ps, p.isMarkup = true → p.source.IsChain Follows
  ends : ps.IsChain fun p q => p.isMarkup = true → q.isMarkup = false → p.source.getLast? = some '>'

theorem flatten_kept (inTag : Bool) (ps : List Piece) :
    (kept inTag ps).flatten = outsideTags inTag (join ps) := by
  induction ps generalizing inTag with
  | nil => rfl
  | cons p ps ih => rw [join_cons, outsideTags_append, ← ih, kept, List.flatten_cons]

theorem plain_nil : Plain [] := ⟨by simp, by simp, .nil⟩

theorem plain_cons_text {p : Piece} (hp : p.isMarkup = false) {ps : List Piece} :
    Plain (p :: ps) ↔ IsUnmarked p.source ∧ Plain ps := by
  constructor
  · intro h
    obtain ⟨htext, hrest⟩ := List.forall_mem_cons.mp h.text
    exact ⟨htext hp, hrest, (List.forall_mem_cons.mp h.markup).2, h.ends.tail⟩
  · rintro ⟨htext, hrest⟩
    refine ⟨List.forall_mem_cons.mpr ⟨fun _ => htext, hrest.text⟩,
      List.forall_mem_cons.mpr ⟨fun h => ?_, hrest.markup⟩,
      List.isChain_cons.mpr ⟨fun q _ h => ?_, hrest.ends⟩⟩
    · rw [hp] at h
      cases h
    · rw [hp] at h
      cases h

theorem plain_cons_markup {p : Piece} (hp : p.isMarkup = true) {ps : List Piece} :
    Plain (p :: ps) ↔ p.source.IsChain Follows ∧
      (∀ q ∈ ps.head?, q.isMarkup = false → p.source.getLast? = some '>') ∧ Plain ps := by
  constructor
  · intro h
    obtain ⟨hmarkup, hrest⟩ := List.forall_mem_cons.mp h.markup
    obtain ⟨hends, hlater⟩ := List.isChain_cons.mp h.ends
    exact ⟨hmarkup hp, fun q hq => hends q hq hp, (List.forall_mem_cons.mp h.text).2, hrest, hlater⟩
  · rintro ⟨hmarkup, hends, hrest⟩
    refine ⟨List.forall_mem_cons.mpr ⟨fun h => ?_, hrest.text⟩,
      List.forall_mem_cons.mpr ⟨fun _ => hmarkup, hrest.markup⟩,
      List.isChain_cons.mpr ⟨fun q hq _ => hends q hq, hrest.ends⟩⟩
    rw [hp] at h
    cases h

/-- Piece by piece, what is kept is what stands outside of markup exactly when no `<` or `>` stands
for itself; when a tag has not ended before, markup has to come first. -/
theorem kept_eq_iff {ps : List Piece} (hsource : ∀ p ∈ ps, p.source ≠ [])
    (hmarkup : ∀ p ∈ ps, p.isMarkup = true → p.source.head? = some '<') (inTag : Bool) :
    kept inTag ps = ps.map Piece.outside ↔
      Plain ps ∧ (inTag = true → ∀ q ∈ ps.head?, q.isMarkup = true) := by
  induction ps generalizing inTag with
  | nil => simp [kept, plain_nil]
  | cons p ps ih =>
    obtain ⟨hp, hps⟩ := List.forall_mem_cons.mp hsource
    obtain ⟨hstart, hstarts⟩ := List.forall_mem_cons.mp hmarkup
    rw [kept, List.map_cons, List.cons.injEq, ih hps hstarts]
    cases hkind : p.isMarkup with
    | false =>
      rw [Piece.outside, if_neg (by rw [hkind]; decide), outsideTags_eq_self_iff _ _ hp,
        plain_cons_text hkind]
      constructor
      · rintro ⟨⟨rfl, htext⟩, hrest, -⟩
        exact ⟨⟨htext, hrest⟩, nofun⟩
      · rintro ⟨⟨htext, hrest⟩, hfirst⟩
        have hout : inTag = false := by
          rw [← Bool.not_eq_true]
          intro h
          have := hfirst h p rfl
          rw [hkind] at this
          cases this
        refine ⟨⟨hout, htext⟩, hrest, fun h => ?_⟩
        rw [endsInTag_of_isUnmarked htext, hout] at h
        cases h
    | true =>
      obtain ⟨t, ht⟩ := List.head?_eq_some_iff.mp (hstart hkind)
      have hempty : outsideTags inTag p.source = [] ↔ p.source.IsChain Follows := by
        rw [ht]
        exact (outsideTags_mark inTag true t).symm ▸ outsideTags_eq_nil_iff true t
      rw [Piece.outside, if_pos hkind, plain_cons_markup hkind, hempty, and_assoc, and_assoc]
      apply and_congr_right
      intro hchain
      have hended : endsInTag inTag p.source = false ↔ p.source.getLast? = some '>' := by
        rw [ht] at hchain ⊢
        exact (endsInTag_mark inTag true t).symm ▸ endsInTag_of_chain hchain
      constructor
      · rintro ⟨hrest, hnext⟩
        refine ⟨fun q hq hplain => hended.mp ?_, hrest, fun _ q hq => ?_⟩
        · rw [← Bool.not_eq_true]
          intro h
          rw [hnext h q hq] at hplain
          cases hplain
        · cases hq
          exact hkind
      · rintro ⟨hnext, hrest, -⟩
        refine ⟨hrest, fun h q hq => ?_⟩
        rw [← Bool.not_eq_false]
        intro hplain
        rw [hended.mpr (hnext q hq hplain)] at h
        cases h

/-! ## Buttons -/

/-- With nested elements, other than a single label, a button shows its source outside of tags. -/
theorem ofElement_text {text : String} {b : Element} (hb : b ∈ (Markup.parse text).descendants)
    (htag : b.tag = "button") (hchildren : b.children ≠ [])
    (hlabels : (b.descendants.filter (·.tag = "label")).length ≠ 1) :
    (ofElement b).text = String.ofList (trim (outsideTags false b.inner.toList)) := by
  have hinner : b.inner ≠ "" := (Markup.parse_keepsPieces text b hb htag).inner hchildren
  unfold ofElement
  rw [if_neg (by simpa using hchildren)]
  split
  · next label h =>
    rw [h] at hlabels
    exact absurd rfl hlabels
  · rw [if_neg hinner]

/-- What stands outside of the markup of a button, as the reader delimits it, is kept whole and
with nothing else, piece by piece, exactly when no `<` or `>` in it stands for itself. -/
theorem ofElement_text_iff {text : String} {b : Element}
    (hb : b ∈ (Markup.parse text).descendants) (htag : b.tag = "button")
    (hchildren : b.children ≠ []) (hlabels : (b.descendants.filter (·.tag = "label")).length ≠ 1) :
    let ps := Markup.pieces b.inner.toList
    ps <:+: Markup.pieces text.toList ∧
      (ofElement b).text = String.ofList (trim (kept false ps).flatten) ∧
      (kept false ps = ps.map Piece.outside ↔ Plain ps) ∧
      (Plain ps → (ofElement b).text = String.ofList (trim (ps.map Piece.outside).flatten)) := by
  intro ps
  have hrun : ps <:+: Markup.pieces text.toList := (Markup.parse_keepsPieces text b hb htag).run
  have htext : (ofElement b).text = String.ofList (trim (kept false ps).flatten) := by
    rw [flatten_kept, Markup.join_pieces]
    exact ofElement_text hb htag hchildren hlabels
  have hiff : kept false ps = ps.map Piece.outside ↔ Plain ps := by
    rw [kept_eq_iff Markup.source_ne_nil Markup.source_head false]
    exact and_iff_left nofun
  refine ⟨hrun, htext, hiff, fun hplain => ?_⟩
  rw [htext, hiff.mpr hplain]

/-- Text before, in and after nested elements. -/
theorem ofElement_text_nested :
    ∃ b ∈ (Markup.parse "<button>a <b i='1'>x</b> c <i/></button>").descendants,
      b.tag = "button" ∧ b.children ≠ [] ∧ (b.descendants.filter (·.tag = "label")).length ≠ 1 ∧
        Plain (Markup.pieces b.inner.toList) ∧ (ofElement b).text = "a x c" := by
  obtain ⟨b, hb, htag, hchildren, hlabels, hkept, htrim⟩ :
      ∃ b ∈ (Markup.parse "<button>a <b i='1'>x</b> c <i/></button>").descendants,
        b.tag = "button" ∧ b.children.isEmpty = false ∧
          (b.descendants.filter (·.tag = "label")).length ≠ 1 ∧
          kept false (Markup.pieces b.inner.toList) =
            (Markup.pieces b.inner.toList).map Piece.outside ∧
          trim ((Markup.pieces b.inner.toList).map Piece.outside).flatten = "a x c".toList := by
    decide +kernel
  rw [List.isEmpty_eq_false_iff] at hchildren
  obtain ⟨-, -, hiff, htext⟩ := ofElement_text_iff hb htag hchildren hlabels
  have hplain := hiff.mp hkept
  refine ⟨b, hb, htag, hchildren, hlabels, hplain, ?_⟩
  rw [htext hplain, htrim, String.ofList_toList]

/-- A `>` between quotes ends the tag, so the rest of the value is shown. -/
theorem not_ofElement_text :
    ¬ ∀ text : String, ∀ b ∈ (Markup.parse text).descendants, b.tag = "button" → b.children ≠ [] →
      (b.descendants.filter (·.tag = "label")).length ≠ 1 →
      (∀ d ∈ b.descendants, Markup.isVerbatim d.tag = false) →
      (∀ p ∈ Markup.pieces b.inner.toList, ¬ "<!--".toList <+: p.source) →
      (ofElement b).text =
        String.ofList (trim ((Markup.pieces b.inner.toList).map Piece.outside).flatten) := by
  intro h
  obtain ⟨b, hb, htag, hchildren, hlabels, hverbatim, hcomment, hne⟩ :
      ∃ b ∈ (Markup.parse "<button><b title=\"1>0\">x</b></button>").descendants,
        b.tag = "button" ∧ b.children.isEmpty = false ∧
          (b.descendants.filter (·.tag = "label")).length ≠ 1 ∧
          (∀ d ∈ b.descendants, Markup.isVerbatim d.tag = false) ∧
          (∀ p ∈ Markup.pieces b.inner.toList, ¬ "<!--".toList <+: p.source) ∧
          (ofElement b).text ≠
            String.ofList (trim ((Markup.pieces b.inner.toList).map Piece.outside).flatten) := by
    decide +kernel
  rw [List.isEmpty_eq_false_iff] at hchildren
  exact hne (h _ b hb htag hchildren hlabels hverbatim hcomment)

end ButtonLabel
end ScreenMarkup
