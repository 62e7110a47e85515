import ScreenMarkup.Markup.Lexeme
import ScreenMarkup.Proofs.Text.Cutting

/-!
# Lexemes within a part of a text

A lexeme is decided by the text that it consumes. When what is left still ends
with a mark of markup and all that follows it, the same lexeme is read where
the text ends before that mark.
-/

set_option autoImplicit false

namespace ScreenMarkup

open Text

/-! ## Cuts -/

namespace Text

variable {mark t a r : List Char}

theorem after?_extend (h : after? mark t = some r) (u : List Char) :
    after? mark (t ++ u) = some (r ++ u) := by
  rw [after?_eq_some h, List.append_assoc, after?_append]

theorem after?_within {u : List Char} (h : after? mark (t ++ u) = some (r ++ u)) :
    after? mark t = some r := by
  have hall : t ++ u = (mark ++ r) ++ u := by
    rw [List.append_assoc]
    exact after?_eq_some h
  have ht : t = mark ++ r := List.append_cancel_right hall
  rw [ht, after?_append]

/-- A cut is made within the part of a text that stands before what it leaves. -/
theorem cut?_within {u : List Char} (h : cut? mark (t ++ u) = some (a, r ++ u)) :
    cut? mark t = some (a, r) := by
  induction t generalizing a with
  | nil =>
    have hlength := congrArg List.length (cut?_eq_some h)
    simp only [List.nil_append, List.length_append] at hlength
    obtain rfl : a = [] := List.eq_nil_of_length_eq_zero (by omega)
    obtain rfl : mark = [] := List.eq_nil_of_length_eq_zero (by omega)
    obtain rfl : r = [] := List.eq_nil_of_length_eq_zero (by omega)
    rfl
  | cons c t ih =>
    rw [List.cons_append, cut?, ← List.cons_append] at h
    rw [cut?]
    split at h
    · next rest hafter =>
      obtain ⟨rfl, rfl⟩ := Prod.mk.inj (Option.some.inj h)
      rw [after?_within hafter]
    · next hafter =>
      obtain ⟨parts, hparts, he⟩ := Option.map_eq_some_iff.mp h
      obtain ⟨rfl, hrest⟩ := Prod.mk.inj he
      have hcut : cut? mark t = some (parts.1, r) := ih (hrest ▸ hparts)
      cases hstart : after? mark (c :: t) with
      | some rest =>
        rw [after?_extend hstart] at hafter
        cases hafter
      | none => rw [hcut]; rfl

theorem cut?_suffix {mark s : List Char} {parts : List Char × List Char}
    (h : cut? mark s = some parts) : parts.2 <:+ s :=
  ⟨parts.1 ++ mark, (cut?_eq_some h).symm⟩

end Text

namespace Markup

/-! ## What is left -/

theorem skipBlanks_suffix (s : List Char) : skipBlanks s <:+ s := List.dropWhile_suffix _

theorem skipPast_suffix (mark s : List Char) : skipPast mark s <:+ s := by
  unfold skipPast
  split
  · next h => exact cut?_suffix h
  · exact List.nil_suffix

theorem readValue_suffix (s : List Char) : (readValue s).2 <:+ s := by
  cases s with
  | nil => exact List.suffix_refl _
  | cons c s =>
    simp only [readValue]
    split
    · exact ((List.drop_suffix _ _).trans (List.dropWhile_suffix _)).trans (List.suffix_cons _ _)
    · exact List.dropWhile_suffix _

theorem readAssigned_suffix (s : List Char) : (readAssigned s).2 <:+ s := by
  have h := skipBlanks_suffix s
  unfold readAssigned
  split
  · next r hr =>
    rw [hr] at h
    exact ((readValue_suffix _).trans (skipBlanks_suffix r)).trans ((List.suffix_cons _ r).trans h)
  · exact h

theorem readAttrs_suffix (s : List Char) : (readAttrs s).2 <:+ s := by
  fun_induction readAttrs s with
  | case1 => exact List.nil_suffix
  | case2 s c r h => rw [← h]; exact skipBlanks_suffix s
  | case3 s c r h hend hname name assigned more ih =>
    have hrest : r <:+ s := (List.suffix_cons c r).trans (h ▸ skipBlanks_suffix s)
    have hassigned : assigned.2 <:+ r := (readAssigned_suffix _).trans (List.dropWhile_suffix _)
    exact (ih.trans hassigned).trans hrest
  | case4 s c r h hend hname ih =>
    exact ih.trans ((List.suffix_cons c r).trans (h ▸ skipBlanks_suffix s))

theorem readVerbatim_suffix (tag : String) (s : List Char) : (readVerbatim tag s).2 <:+ s := by
  unfold readVerbatim
  cases h : cut? ("</".toList ++ tag.toList ++ ['>']) s with
  | none => exact List.nil_suffix
  | some parts => exact cut?_suffix h

theorem readTagEnd_suffix (tag : String) (attrs : NameTable) (s : List Char) :
    (readTagEnd tag attrs s).2 <:+ s := by
  unfold readTagEnd
  split
  · exact (List.suffix_cons _ _).trans (List.suffix_cons _ _)
  · exact List.suffix_cons _ _
  · extract_lets body
    have hbody : body <:+ s := by
      unfold body
      split
      · exact List.suffix_cons _ _
      · exact List.suffix_refl _
    split
    · exact (readVerbatim_suffix tag body).trans hbody
    · exact hbody

theorem readStart_suffix (s : List Char) : (readStart s).2 <:+ s := by
  unfold readStart
  split
  · exact List.suffix_refl _
  · exact ((readTagEnd_suffix _ _ _).trans (readAttrs_suffix _)).trans (List.dropWhile_suffix _)

theorem readTag_suffix (s : List Char) : (readTag s).2 <:+ s := by
  unfold readTag
  split
  · exact (skipPast_suffix _ _).trans (List.suffix_append [_, _, _] _)
  · exact (skipPast_suffix _ _).trans (List.suffix_cons _ _)
  · exact (skipPast_suffix _ _).trans (List.suffix_cons _ _)
  · exact (skipPast_suffix _ _).trans (List.suffix_cons _ _)
  · exact (readStart_suffix _).trans (skipBlanks_suffix _)

theorem next_suffix (c : Char) (s : List Char) : (next c s).2 <:+ s := by
  unfold next
  split
  · exact skipBlanks_suffix s
  · split
    · exact readTag_suffix s
    · exact List.dropWhile_suffix _

/-! ## The same lexeme -/

section

-- the text that is read, and the rest from a `<` on
variable {t v r : List Char}

/-- A run of characters that does not reach the end of its part. -/
theorem dropWhile_within {p : Char → Bool}
    (h : (t ++ '<' :: v).dropWhile p = r ++ '<' :: v) :
    t.dropWhile p = r ∧ t.takeWhile p = (t ++ '<' :: v).takeWhile p := by
  induction t with
  | nil =>
    rw [List.nil_append] at h ⊢
    by_cases hp : p '<' = true
    · rw [List.dropWhile_cons_of_pos hp] at h
      have hlength := (List.dropWhile_sublist p (l := v)).length_le
      simp only [h, List.length_append, List.length_cons] at hlength
      omega
    · rw [List.dropWhile_cons_of_neg hp] at h
      rw [List.takeWhile_cons_of_neg hp]
      exact ⟨(List.self_eq_append_left.mp h).symm, rfl⟩
  | cons c t ih =>
    rw [List.cons_append] at h ⊢
    by_cases hp : p c = true
    · rw [List.dropWhile_cons_of_pos hp] at h ⊢
      rw [List.takeWhile_cons_of_pos hp, List.takeWhile_cons_of_pos hp]
      obtain ⟨hd, ht⟩ := ih h
      exact ⟨hd, congrArg _ ht⟩
    · rw [List.dropWhile_cons_of_neg hp, ← List.cons_append] at h
      rw [List.dropWhile_cons_of_neg hp, List.takeWhile_cons_of_neg hp,
        List.takeWhile_cons_of_neg hp]
      exact ⟨List.append_cancel_right h, rfl⟩

/-- A run of characters other than `<` ends with its part at the latest. -/
theorem dropWhile_append_lt {p : Char → Bool} (hp : p '<' = false) (t v : List Char) :
    (t ++ '<' :: v).dropWhile p = t.dropWhile p ++ '<' :: v := by
  induction t with
  | nil => exact List.dropWhile_cons_of_neg (by rw [hp]; decide)
  | cons c t ih =>
    rw [List.cons_append, List.dropWhile_cons, List.dropWhile_cons]
    split
    · exact ih
    · rfl

theorem takeWhile_append_lt {p : Char → Bool} (hp : p '<' = false) (t v : List Char) :
    (t ++ '<' :: v).takeWhile p = t.takeWhile p :=
  (dropWhile_within (dropWhile_append_lt hp t v)).2.symm

theorem skipBlanks_append_lt (t v : List Char) :
    skipBlanks (t ++ '<' :: v) = skipBlanks t ++ '<' :: v :=
  dropWhile_append_lt (by decide) t v

theorem skipPast_within {mark : List Char} (h : skipPast mark (t ++ '<' :: v) = r ++ '<' :: v) :
    skipPast mark t = r := by
  unfold skipPast at h
  split at h
  · next parts hcut =>
    rw [skipPast, cut?_within (hcut.trans (by rw [← h]))]
  · cases r <;> cases h

theorem readValue_within {value : String} (h : readValue (t ++ '<' :: v) = (value, r ++ '<' :: v)) :
    readValue t = (value, r) := by
  cases t with
  | nil =>
    obtain ⟨rfl, hrest⟩ := Prod.mk.inj h
    obtain ⟨rfl, hvalue⟩ := dropWhile_within (t := []) hrest
    rw [List.nil_append] at hvalue
    rw [← hvalue]
    rfl
  | cons c t =>
    rw [List.cons_append, readValue] at h
    rw [readValue]
    split
    · next hq =>
      rw [if_pos hq, Prod.mk.injEq] at h
      obtain ⟨rfl, hrest⟩ := h
      -- the quote is read, so it stands before what is left
      cases hquote : (t ++ '<' :: v).dropWhile (· ≠ c) with
      | nil =>
        rw [hquote] at hrest
        cases r <;> cases hrest
      | cons q s =>
        rw [hquote, List.drop_one, List.tail_cons] at hrest
        rw [hrest, ← List.cons_append] at hquote
        obtain ⟨hdrop, htake⟩ := dropWhile_within hquote
        rw [hdrop, htake]
        rfl
    · next hq =>
      rw [if_neg hq, Prod.mk.injEq] at h
      obtain ⟨rfl, hrest⟩ := h
      obtain ⟨hdrop, htake⟩ := dropWhile_within (t := c :: t) hrest
      rw [hdrop, htake]
      rfl

theorem readAssigned_within {value : String}
    (h : readAssigned (t ++ '<' :: v) = (value, r ++ '<' :: v)) : readAssigned t = (value, r) := by
  unfold readAssigned at h ⊢
  rw [skipBlanks_append_lt] at h
  cases hs : skipBlanks t with
  | nil =>
    rw [hs] at h
    obtain ⟨rfl, hrest⟩ := Prod.mk.inj h
    rw [List.self_eq_append_left.mp hrest]
  | cons c s =>
    rw [hs, List.cons_append] at h
    by_cases hc : c = '='
    · subst hc
      apply readValue_within
      rw [← skipBlanks_append_lt]
      exact h
    · split at h
      · next he => exact absurd (List.cons.inj he).1 hc
      · split
        · next he => exact absurd (List.cons.inj he).1 hc
        · obtain ⟨rfl, hrest⟩ := Prod.mk.inj h
          rw [← List.cons_append] at hrest
          rw [List.append_cancel_right hrest]

theorem readAttrs_of_cons {s l : List Char} {c : Char} (h : skipBlanks s = c :: l) :
    readAttrs s =
      if c = '>' ∨ c = '/' then ([], c :: l)
      else if isNameChar c then
        let assigned := readAssigned (l.dropWhile isNameChar)
        let more := readAttrs assigned.2
        ((lowered ((c :: l).takeWhile isNameChar), assigned.1) :: more.1, more.2)
      else readAttrs l := by
  rw [readAttrs]
  split
  · next he =>
    rw [h] at he
    cases he
  · next he =>
    rw [h] at he
    cases he
    rfl

theorem readAttrs_within (h : (readAttrs (t ++ '<' :: v)).2 = r ++ '<' :: v) :
    readAttrs t = ((readAttrs (t ++ '<' :: v)).1, r) := by
  fun_induction readAttrs t with
  | case1 t hs =>
    -- the mark is stepped over
    have hskip : skipBlanks (t ++ '<' :: v) = '<' :: v := by rw [skipBlanks_append_lt, hs]; rfl
    rw [readAttrs_of_cons hskip, if_neg (by decide), if_neg (by decide)] at h
    have hlength := (readAttrs_suffix v).length_le
    rw [h, List.length_append, List.length_cons] at hlength
    omega
  | case2 t c l hs hend =>
    have hskip : skipBlanks (t ++ '<' :: v) = c :: (l ++ '<' :: v) := by
      rw [skipBlanks_append_lt, hs, List.cons_append]
    rw [readAttrs_of_cons hskip, if_pos hend] at h ⊢
    rw [← List.cons_append] at h
    rw [List.append_cancel_right h]
  | case3 t c l hs hend hname name assigned more ih =>
    have hskip : skipBlanks (t ++ '<' :: v) = c :: (l ++ '<' :: v) := by
      rw [skipBlanks_append_lt, hs, List.cons_append]
    rw [readAttrs_of_cons hskip, if_neg hend, if_pos hname, dropWhile_append_lt (by decide),
      ← List.cons_append, takeWhile_append_lt (by decide)] at h ⊢
    -- what follows the value still ends with what is left
    obtain ⟨x, hx⟩ := readAttrs_suffix (readAssigned (l.dropWhile isNameChar ++ '<' :: v)).2
    rw [h, ← List.append_assoc] at hx
    have hassigned : assigned = (_, x ++ r) := readAssigned_within (Prod.ext rfl hx.symm)
    have hmark : assigned.2 ++ '<' :: v =
        (readAssigned (l.dropWhile isNameChar ++ '<' :: v)).2 := by
      rw [hassigned]
      exact hx
    rw [hmark] at ih
    show ((name, assigned.1) :: (readAttrs assigned.2).1, (readAttrs assigned.2).2) = _
    rw [ih h, hassigned]
  | case4 t c l hs hend hname ih =>
    have hskip : skipBlanks (t ++ '<' :: v) = c :: (l ++ '<' :: v) := by
      rw [skipBlanks_append_lt, hs, List.cons_append]
    rw [readAttrs_of_cons hskip, if_neg hend, if_neg hname] at h ⊢
    exact ih h

theorem readVerbatim_within {tag : String} {body : List Char}
    (h : readVerbatim tag (t ++ '<' :: v) = (body, r ++ '<' :: v)) :
    readVerbatim tag t = (body, r) := by
  unfold readVerbatim at h ⊢
  cases hcut : cut? ("</".toList ++ tag.toList ++ ['>']) (t ++ '<' :: v) with
  | none =>
    rw [hcut] at h
    cases r <;> cases h
  | some parts =>
    rw [hcut] at h
    obtain rfl : parts = (body, r ++ '<' :: v) := h
    rw [cut?_within hcut]
    rfl

/-- What follows a start tag that is not complete in itself. -/
def readBody (tag : String) (attrs : NameTable) (body : List Char) : Lexeme × List Char :=
  if isVerbatim tag then
    (.whole tag attrs (String.ofList (readVerbatim tag body).1), (readVerbatim tag body).2)
  else (.opening tag attrs, body)

theorem readBody_within {tag : String} {attrs : NameTable} {lexeme : Lexeme}
    (h : readBody tag attrs (t ++ '<' :: v) = (lexeme, r ++ '<' :: v)) :
    readBody tag attrs t = (lexeme, r) := by
  unfold readBody at h ⊢
  split
  · next hv =>
    rw [if_pos hv] at h
    obtain ⟨rfl, hrest⟩ := Prod.mk.inj h
    rw [readVerbatim_within (Prod.ext rfl hrest)]
  · next hv =>
    rw [if_neg hv] at h
    obtain ⟨rfl, hrest⟩ := Prod.mk.inj h
    rw [List.append_cancel_right hrest]

theorem readTagEnd_slash (tag : String) (attrs : NameTable) (s : List Char) :
    readTagEnd tag attrs ('/' :: s) =
      (.whole tag attrs "", if s.head? = some '>' then s.tail else s) := by
  rcases s with - | ⟨d, s⟩
  · rfl
  · by_cases hd : d = '>' <;> simp [readTagEnd, hd]

theorem readTagEnd_of_ne {c : Char} (hc : c ≠ '/') (tag : String) (attrs : NameTable)
    (s : List Char) :
    readTagEnd tag attrs (c :: s) = readBody tag attrs (if c = '>' then s else c :: s) := by
  by_cases hgt : c = '>' <;> simp [readTagEnd, readBody, hc, hgt]

theorem readTagEnd_within {tag : String} {attrs : NameTable} {lexeme : Lexeme}
    (h : readTagEnd tag attrs (t ++ '<' :: v) = (lexeme, r ++ '<' :: v)) :
    readTagEnd tag attrs t = (lexeme, r) := by
  rcases t with - | ⟨c, t⟩
  · exact readBody_within (t := []) h
  rw [List.cons_append] at h
  by_cases hslash : c = '/'
  · subst hslash
    rw [readTagEnd_slash] at h ⊢
    obtain ⟨rfl, hrest⟩ := Prod.mk.inj h
    rcases t with - | ⟨d, t⟩
    · rw [List.self_eq_append_left.mp hrest]
      rfl
    · by_cases hgt : d = '>'
      · subst hgt
        have hr : t = r := List.append_cancel_right hrest
        rw [hr]
        rfl
      · rw [if_neg (by simpa using hgt)] at hrest ⊢
        rw [List.append_cancel_right hrest]
  · rw [readTagEnd_of_ne hslash] at h ⊢
    by_cases hgt : c = '>'
    · rw [if_pos hgt] at h ⊢
      exact readBody_within h
    · rw [if_neg hgt] at h ⊢
      exact readBody_within (t := c :: t) h

theorem readStart_within {lexeme : Lexeme}
    (h : readStart (t ++ '<' :: v) = (lexeme, r ++ '<' :: v)) : readStart t = (lexeme, r) := by
  unfold readStart at h ⊢
  rw [takeWhile_append_lt (by decide)] at h
  split
  · next hname =>
    rw [if_pos hname] at h
    obtain ⟨rfl, hrest⟩ := Prod.mk.inj h
    rw [List.append_cancel_right hrest]
  · next hname =>
    rw [if_neg hname, dropWhile_append_lt (by decide)] at h
    -- what follows the attributes still ends with what is left
    obtain ⟨x, hx⟩ := readTagEnd_suffix (lowered (t.takeWhile isNameChar))
      (NameTable.ofList (readAttrs (t.dropWhile isNameChar ++ '<' :: v)).1)
      (readAttrs (t.dropWhile isNameChar ++ '<' :: v)).2
    rw [h, ← List.append_assoc] at hx
    rw [readAttrs_within hx.symm]
    apply readTagEnd_within
    rwa [hx]

theorem readTag_within {lexeme : Lexeme}
    (h : readTag (t ++ '<' :: v) = (lexeme, r ++ '<' :: v)) : readTag t = (lexeme, r) := by
  have hskipped {mark l : List Char} {kind : Lexeme}
      (h : (kind, skipPast mark (l ++ '<' :: v)) = (lexeme, r ++ '<' :: v)) :
      (kind, skipPast mark l) = (lexeme, r) := by
    obtain ⟨rfl, hrest⟩ := Prod.mk.inj h
    rw [skipPast_within hrest]
  fun_cases readTag t with
  | case1 l => exact hskipped h
  | case2 l hl =>
    apply hskipped
    rw [← h]
    symm
    apply readTag.eq_2
    rintro s hs
    rcases l with - | ⟨c, - | ⟨d, l⟩⟩
    · cases hs
    · cases hs
    · cases hs
      exact hl l rfl
  | case3 l => exact hskipped h
  | case4 l => exact hskipped h
  | case5 t h₁ h₂ h₃ h₄ =>
    apply readStart_within
    rw [← skipBlanks_append_lt, ← h]
    symm
    -- the mark does not turn a start tag into something else
    have hhead {c : Char} (hc : c ≠ '<') (hl : ∀ l, t = c :: l → False) (l : List Char)
        (he : t ++ '<' :: v = c :: l) : False := by
      rcases t with - | ⟨d, t⟩
      · exact hc (List.cons.inj he).1.symm
      · exact hl t (congrArg (· :: t) (List.cons.inj he).1)
    exact readTag.eq_5 _ (fun _ => hhead (by decide) h₂ _) (hhead (by decide) h₂)
      (hhead (by decide) h₃) (hhead (by decide) h₄)

theorem next_within {c : Char} {lexeme : Lexeme}
    (h : next c (t ++ '<' :: v) = (lexeme, r ++ '<' :: v)) : next c t = (lexeme, r) := by
  unfold next at h ⊢
  split
  · next hc =>
    rw [if_pos hc, skipBlanks_append_lt] at h
    obtain ⟨rfl, hrest⟩ := Prod.mk.inj h
    rw [List.append_cancel_right hrest]
  · next hc =>
    rw [if_neg hc] at h
    split
    · next hlt =>
      rw [if_pos hlt] at h
      exact readTag_within h
    · next hlt =>
      rw [if_neg hlt, takeWhile_append_lt (by decide), dropWhile_append_lt (by decide)] at h
      obtain ⟨rfl, hrest⟩ := Prod.mk.inj h
      rw [List.append_cancel_right hrest]

end

end Markup
end ScreenMarkup
