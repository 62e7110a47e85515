import Mathlib.Data.List.Basic
import Mathlib.Data.List.Infix
import Mathlib.Data.List.TakeWhile
import ScreenMarkup.Text.Blank
import ScreenMarkup.Text.Search

/-!
# Cutting and trimming

A cut is made at the first occurrence of its mark, and a mark that ends with
a character of its own is found where it was written. A text that neither
starts nor ends with a blank survives trimming, whatever blanks follow it.

A text is cut into strokes by a character that stands only where a stroke
begins. A mark that begins with this character, and has it nowhere else, is
found just where a stroke begins with the rest of the mark.
-/

set_option autoImplicit false

namespace ScreenMarkup.Text

/-! ## Cuts -/

/-- What stands before the rest of a text. -/
theorem take_before (a b : List Char) : (a ++ b).take ((a ++ b).length - b.length) = a := by
  rw [List.length_append, Nat.add_sub_cancel, List.take_left]

theorem prefix_takeWhile {p : Char → Bool} {s w : List Char} (h : w <+: s)
    (hw : ∀ c ∈ w, p c = true) : w <+: s.takeWhile p := by
  obtain ⟨r, rfl⟩ := h
  rw [List.takeWhile_append_of_pos hw]
  exact List.prefix_append _ _

theorem contains_append (a mark b : List Char) : contains mark (a ++ mark ++ b) = true := by
  unfold contains
  induction a with
  | nil =>
    rw [List.nil_append]
    cases hs : mark ++ b with
    | nil =>
      rw [List.append_eq_nil_iff] at hs
      rw [cut?, if_pos hs.1]
      rfl
    | cons c s =>
      rw [cut?, ← hs, after?_append]
      rfl
  | cons c a ih =>
    rw [List.cons_append, List.cons_append, cut?]
    split
    · rfl
    · rwa [Option.isSome_map]

theorem contains_iff (mark s : List Char) :
    contains mark s = true ↔ ∃ a b, s = a ++ mark ++ b := by
  constructor
  · intro h
    obtain ⟨parts, hp⟩ := Option.isSome_iff_exists.mp h
    exact ⟨parts.1, parts.2, cut?_eq_some hp⟩
  · rintro ⟨a, b, rfl⟩
    exact contains_append a mark b

theorem contains_nil {mark : List Char} (hm : mark ≠ []) : contains mark [] = false := by
  rw [contains, cut?, if_neg hm]
  rfl

/-- Nothing before a cut is the mark. -/
theorem contains_cut?_fst {mark s : List Char} {parts : List Char × List Char}
    (hm : mark ≠ []) (h : cut? mark s = some parts) : contains mark parts.1 = false := by
  induction s generalizing parts with
  | nil =>
    rw [cut?, if_neg hm] at h
    cases h
  | cons c s ih =>
    unfold cut? at h
    split at h
    · cases h
      exact contains_nil hm
    · next hafter =>
      obtain ⟨p, hp, rfl⟩ := Option.map_eq_some_iff.mp h
      have hs : s = p.1 ++ mark ++ p.2 := cut?_eq_some hp
      show (cut? mark (c :: p.1)).isSome = false
      rw [cut?]
      split
      · next r hr =>
        have hmark : c :: p.1 = mark ++ r := after?_eq_some hr
        rw [hs, ← List.cons_append, ← List.cons_append, hmark, List.append_assoc, List.append_assoc,
          after?_append] at hafter
        cases hafter
      · rw [Option.isSome_map]
        exact ih hp

/-- A mark that ends with a character it has nowhere else does not overlap with itself. -/
theorem contains_of_overlap {p : List Char} {z : Char} (hz : z ∉ p) {a b r : List Char}
    (ha : a ≠ []) (he : a ++ (p ++ [z] ++ b) = p ++ [z] ++ r) :
    contains (p ++ [z]) a = true := by
  by_cases hlen : p.length < a.length
  · have hmark : p ++ [z] <+: a := by
      apply List.prefix_of_prefix_length_le (List.prefix_append _ r)
      · rw [← he]
        exact List.prefix_append _ _
      · rw [List.length_append]
        exact hlen
    obtain ⟨y, rfl⟩ := hmark
    exact contains_append [] (p ++ [z]) y
  · -- its last character would stand inside of it
    exfalso
    have hpos := List.length_pos_of_ne_nil ha
    have hlast : (p ++ [z] ++ r)[p.length]? = some z := by simp
    rw [← he, List.getElem?_append_right (by omega), List.append_assoc,
      List.getElem?_append_left (by omega)] at hlast
    exact hz (List.mem_of_getElem? hlast)

theorem cut?_append {p : List Char} {z : Char} (hz : z ∉ p) {a : List Char}
    (ha : contains (p ++ [z]) a = false) (b : List Char) :
    cut? (p ++ [z]) (a ++ (p ++ [z]) ++ b) = some (a, b) := by
  induction a with
  | nil =>
    obtain ⟨c, s, hs⟩ := List.exists_cons_of_ne_nil (l := p ++ [z] ++ b) (by simp)
    rw [List.nil_append, hs, cut?, ← hs, after?_append]
  | cons c a ih =>
    have hrest : contains (p ++ [z]) a = false := by
      rw [← Bool.not_eq_true]
      intro h
      obtain ⟨x, y, rfl⟩ := (contains_iff _ _).mp h
      rw [← List.cons_append, ← List.cons_append, contains_append] at ha
      cases ha
    rw [List.cons_append, List.cons_append, cut?]
    split
    · next r hr =>
      have he : c :: a ++ (p ++ [z] ++ b) = p ++ [z] ++ r := by
        rw [← after?_eq_some hr]
        simp only [List.cons_append, List.append_assoc]
      rw [contains_of_overlap hz (List.cons_ne_nil c a) he] at ha
      cases ha
    · rw [ih hrest]
      rfl

/-! ## Cuts at one character -/

theorem contains_singleton {z : Char} {s : List Char} : contains [z] s = true ↔ z ∈ s := by
  rw [contains_iff, List.mem_iff_append]
  simp only [List.append_assoc, List.singleton_append]

theorem cut?_singleton {z : Char} {s a b : List Char} :
    cut? [z] s = some (a, b) ↔ z ∉ a ∧ s = a ++ z :: b := by
  constructor
  · intro h
    refine ⟨fun hz => ?_, by simpa using cut?_eq_some h⟩
    have hnone := contains_cut?_fst (List.cons_ne_nil z []) h
    rw [contains_singleton.mpr hz] at hnone
    cases hnone
  · rintro ⟨hz, rfl⟩
    have hnone : contains ([] ++ [z]) a = false :=
      Bool.eq_false_iff.mpr fun h => hz (contains_singleton.mp h)
    simpa using cut?_append (p := []) List.not_mem_nil hnone b

theorem cut?_singleton_eq_none {z : Char} {s : List Char} : cut? [z] s = none ↔ z ∉ s := by
  rw [← contains_singleton, contains, Option.not_isSome_iff_eq_none]

/-- A text is cut at the first occurrence of a character in one way only. -/
theorem first_cut {z : Char} {a a' b b' : List Char} (ha : z ∉ a) (ha' : z ∉ a')
    (he : a ++ z :: b = a' ++ z :: b') : a = a' ∧ b = b' := by
  have hcut : cut? [z] (a ++ z :: b) = some (a', b') := cut?_singleton.mpr ⟨ha', he⟩
  rw [cut?_singleton.mpr ⟨ha, rfl⟩, Option.some_inj, Prod.mk.injEq] at hcut
  exact hcut

/-! ## Trimming -/

/-- Neither the first nor the last character is a blank. -/
structure Tight (s : List Char) : Prop where
  first : ∀ c, s.head? = some c → isBlank c = false
  last : ∀ c, s.getLast? = some c → isBlank c = false

theorem Tight.append {s t : List Char} (hs : Tight s) (ht : Tight t) : Tight (s ++ t) := by
  constructor
  · intro c h
    rw [List.head?_append] at h
    cases hh : s.head? with
    | none =>
      rw [hh] at h
      exact ht.first c h
    | some d =>
      rw [hh] at h
      cases h
      exact hs.first c hh
  · intro c h
    rw [List.getLast?_append] at h
    cases hl : t.getLast? with
    | none =>
      rw [hl] at h
      exact hs.last c h
    | some d =>
      rw [hl] at h
      cases h
      exact ht.last c hl

theorem dropWhile_of_head {s : List Char} (h : ∀ c, s.head? = some c → isBlank c = false) :
    s.dropWhile isBlank = s := by
  cases s with
  | nil => rfl
  | cons c s =>
    rw [List.dropWhile_cons_of_neg]
    rw [h c rfl]
    decide

theorem Tight.reverse {s : List Char} (hs : Tight s) : Tight s.reverse :=
  ⟨fun c h => hs.last c (by rwa [List.head?_reverse] at h),
    fun c h => hs.first c (by rwa [List.getLast?_reverse] at h)⟩

/-- Blanks at the end go, and nothing else does. -/
theorem Tight.trim_append {s b : List Char} (hs : Tight s) (hb : ∀ c ∈ b, isBlank c = true)
    (hn : s ≠ []) : trim (s ++ b) = s := by
  have hstart : trimStart (s ++ b) = s ++ b := by
    apply dropWhile_of_head
    intro c h
    cases s with
    | nil => exact absurd rfl hn
    | cons d s => exact hs.first c h
  rw [trim, hstart, trimEnd, List.reverse_append, List.dropWhile_append_of_pos, dropWhile_of_head,
    List.reverse_reverse]
  · exact hs.reverse.first
  · intro c hc
    exact hb c (List.mem_reverse.mp hc)

theorem Tight.trim {s : List Char} (hs : Tight s) : trim s = s := by
  by_cases hn : s = []
  · subst hn
    rfl
  · have h := hs.trim_append (b := []) (fun c hc => by cases hc) hn
    rwa [List.append_nil] at h

theorem head?_dropWhile_isBlank {s : List Char} {c : Char}
    (h : (s.dropWhile isBlank).head? = some c) : isBlank c = false := by
  have hnot := List.head?_dropWhile_not isBlank s
  rw [h] at hnot
  simpa using hnot

/-- What is trimmed is tight. -/
theorem tight_trim (s : List Char) : Tight (Text.trim s) := by
  constructor
  · intro c h
    have hsplit : trimStart s =
        Text.trim s ++ ((trimStart s).reverse.takeWhile isBlank).reverse := by
      rw [Text.trim, trimEnd, ← List.reverse_append, List.takeWhile_append_dropWhile,
        List.reverse_reverse]
    apply head?_dropWhile_isBlank (s := s)
    show (trimStart s).head? = some c
    rw [hsplit, List.head?_append, h]
    rfl
  · intro c h
    apply head?_dropWhile_isBlank (s := (trimStart s).reverse)
    rwa [Text.trim, trimEnd, List.getLast?_reverse] at h

theorem trim_eq_self_iff (s : List Char) : Text.trim s = s ↔ Tight s := by
  constructor
  · intro h
    rw [← h]
    exact tight_trim s
  · exact Tight.trim

theorem trim_sublist (s : List Char) : (Text.trim s).Sublist s := by
  have hstart : (trimStart s).Sublist s := List.dropWhile_sublist _
  have hend : (trimEnd (trimStart s)).Sublist (trimStart s) := by
    rw [trimEnd, ← List.reverse_sublist, List.reverse_reverse]
    exact List.dropWhile_sublist _
  exact hend.trans hstart

end ScreenMarkup.Text

namespace ScreenMarkup.Text

/-- Each stroke after the character that starts it. -/
def unite (c : Char) (strokes : List (List Char)) : List Char := strokes.flatMap (c :: ·)

variable {c : Char} {m s r : List Char} {strokes later : List (List Char)}

theorem unite_append (c : Char) (strokes later : List (List Char)) :
    unite c (strokes ++ later) = unite c strokes ++ unite c later := List.flatMap_append

theorem unite_cons (c : Char) (s : List Char) (strokes : List (List Char)) :
    unite c (s :: strokes) = c :: (s ++ unite c strokes) := List.flatMap_cons

/-- A mark begins nowhere in a text without its first character. -/
theorem infix_append_iff (hs : c ∉ s) : c :: m <:+: s ++ r ↔ c :: m <:+: r := by
  induction s with
  | nil => rfl
  | cons d s ih =>
    have hd : c ≠ d := fun h => hs (by simp [h])
    rw [List.cons_append, List.infix_cons_iff, ih fun h => hs (by simp [h]), List.cons_prefix_cons]
    simp [hd]

/-- What is made of some characters only ends before the first other one. -/
theorem prefix_append_iff {p : Char → Prop} (hm : ∀ d ∈ m, p d)
    (hr : ∀ d, r.head? = some d → ¬ p d) : m <+: s ++ r ↔ m <+: s := by
  refine ⟨fun h => ?_, fun h => h.trans (List.prefix_append _ _)⟩
  induction s generalizing m with
  | nil =>
    cases m with
    | nil => exact List.nil_prefix
    | cons d m =>
      obtain ⟨t, rfl⟩ := h
      exact absurd (hm d (by simp)) (hr d (by simp))
  | cons e s ih =>
    cases m with
    | nil => exact List.nil_prefix
    | cons d m =>
      rw [List.cons_append, List.cons_prefix_cons] at h
      rw [List.cons_prefix_cons]
      exact ⟨h.1, ih (fun c hc => hm c (by simp [hc])) h.2⟩

/-- What does not contain the starting character reaches into no other stroke. -/
theorem prefix_append_unite_iff (hm : c ∉ m) : m <+: s ++ unite c strokes ↔ m <+: s := by
  apply prefix_append_iff (p := (· ≠ c))
  · rintro d hd rfl
    exact hm hd
  · intro d hd
    cases strokes with
    | nil => simp [unite] at hd
    | cons b strokes => simpa [unite] using hd.symm

/-- A mark stands where a stroke begins with it. -/
theorem infix_unite_iff (hm : c ∉ m) (hs : ∀ s ∈ strokes, c ∉ s) :
    c :: m <:+: unite c strokes ↔ ∃ s ∈ strokes, m <+: s := by
  induction strokes with
  | nil => simp [unite]
  | cons s strokes ih =>
    rw [unite_cons, List.infix_cons_iff, List.cons_prefix_cons, prefix_append_unite_iff hm,
      infix_append_iff (hs s (by simp)), ih fun t ht => hs t (by simp [ht])]
    simp

/-- A mark that has its first character only once is found where it is written first. -/
theorem cut?_append_head (hm : c ∉ m) (hs : ¬ c :: m <:+: s) (r : List Char) :
    cut? (c :: m) (s ++ c :: (m ++ r)) = some (s, r) := by
  induction s with
  | nil =>
    rw [List.nil_append, cut?, ← List.cons_append, after?_append]
  | cons d s ih =>
    rw [List.infix_cons_iff, not_or] at hs
    have hafter : after? (c :: m) (d :: (s ++ c :: (m ++ r))) = none := by
      cases h : after? (c :: m) (d :: (s ++ c :: (m ++ r))) with
      | none => rfl
      | some rest =>
        have hprefix : c :: m <+: d :: (s ++ unite c [m ++ r]) :=
          ⟨rest, by rw [← after?_eq_some h]; simp [unite]⟩
        rw [List.cons_prefix_cons, prefix_append_unite_iff hm, ← List.cons_prefix_cons] at hprefix
        exact absurd hprefix hs.1
    rw [List.cons_append, cut?, hafter]
    simp [ih hs.2]

end ScreenMarkup.Text
