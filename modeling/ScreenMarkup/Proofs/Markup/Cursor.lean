import ScreenMarkup.Markup.Cursor
import ScreenMarkup.Proofs.Markup.Locality
import ScreenMarkup.Proofs.Markup.Writing

/-!
# What a cursor reads

A cursor on a boundary between characters stands before some last part of its
text, and the last part that is left tells what is read. All characters that
the reader looks for have a single byte, and no byte of a longer character is
the code of one of them, so a search by bytes ends on a boundary again.
-/

set_option autoImplicit false

namespace ScreenMarkup

namespace Text

variable {n : Nat} {c : Char} {s t u : List Char}

/-! ## Bytes -/

theorem byteSize_cons (c : Char) (s : List Char) :
    byteSize (c :: s) = c.utf8Size + byteSize s := rfl

theorem byteSize_append (s t : List Char) : byteSize (s ++ t) = byteSize s + byteSize t := by
  induction s with
  | nil => exact (Nat.zero_add _).symm
  | cons c s ih => rw [List.cons_append, byteSize_cons, byteSize_cons, ih, Nat.add_assoc]

theorem byteSize_toList (s : String) : byteSize s.toList = s.utf8ByteSize := by
  have hlist (cs : List Char) : byteSize cs = (String.ofList cs).utf8ByteSize := by
    induction cs with
    | nil => rfl
    | cons c cs ih =>
      rw [← List.singleton_append, String.ofList_append, String.utf8ByteSize_append, ← ih,
        byteSize_append]
      simp [byteSize]
  rw [hlist, String.ofList_toList]

theorem byteSize_eq_zero : byteSize s = 0 ↔ s = [] := by
  cases s with
  | nil => exact iff_of_true rfl rfl
  | cons c s =>
    have := c.utf8Size_pos
    rw [byteSize_cons]
    refine iff_of_false (by omega) (by simp)

theorem dropBytes?_cons (hn : 0 < n) : dropBytes? n (c :: s) =
    if c.utf8Size ≤ n then dropBytes? (n - c.utf8Size) s else none := by
  obtain ⟨n, rfl⟩ := Nat.exists_eq_succ_of_ne_zero hn.ne'
  rfl

theorem takeBytes?_cons (hn : 0 < n) : takeBytes? n (c :: s) =
    if c.utf8Size ≤ n then (takeBytes? (n - c.utf8Size) s).map (c :: ·) else none := by
  obtain ⟨n, rfl⟩ := Nat.exists_eq_succ_of_ne_zero hn.ne'
  rfl

/-- Bytes can be dropped where a character begins, and nowhere else. -/
theorem dropBytes?_eq_some : dropBytes? n s = some t ↔ ∃ u, s = u ++ t ∧ byteSize u = n := by
  constructor
  · intro h
    fun_induction dropBytes? n s with
    | case1 s =>
      cases h
      exact ⟨[], rfl, rfl⟩
    | case2 => cases h
    | case3 n c s hc ih =>
      obtain ⟨u, rfl, hu⟩ := ih h
      refine ⟨c :: u, rfl, ?_⟩
      rw [byteSize_cons]
      omega
    | case4 => cases h
  · rintro ⟨u, rfl, rfl⟩
    induction u with
    | nil =>
      show dropBytes? 0 t = some t
      rw [dropBytes?]
    | cons c u ih =>
      have hpos := c.utf8Size_pos
      rw [List.cons_append, byteSize_cons, dropBytes?_cons (by omega), if_pos (by omega),
        Nat.add_sub_cancel_left, ih]

theorem dropBytes?_append (u s : List Char) : dropBytes? (byteSize u) (u ++ s) = some s :=
  dropBytes?_eq_some.mpr ⟨u, rfl, rfl⟩

theorem takeBytes?_append (u s : List Char) : takeBytes? (byteSize u) (u ++ s) = some u := by
  induction u with
  | nil =>
    show takeBytes? 0 s = some []
    rw [takeBytes?]
  | cons c u ih =>
    have hpos := c.utf8Size_pos
    rw [List.cons_append, byteSize_cons, takeBytes?_cons (by omega), if_pos (by omega),
      Nat.add_sub_cancel_left, ih, Option.map_some]

theorem take_run (p : Char → Bool) (s : List Char) :
    takeBytes? (byteSize (s.takeWhile p)) s = some (s.takeWhile p) := by
  have h := takeBytes?_append (s.takeWhile p) (s.dropWhile p)
  rwa [List.takeWhile_append_dropWhile] at h

theorem byteAt?_append (u s : List Char) : byteAt? (byteSize u) (u ++ s) = byteAt? 0 s := by
  induction u with
  | nil => rfl
  | cons c u ih =>
    rw [List.cons_append, byteSize_cons, byteAt?, if_neg (by omega), Nat.add_sub_cancel_left, ih]

/-- A character of a single byte is its own code, and other characters begin with no such code. -/
theorem byteAt?_zero (c : Char) (s : List Char) : ∃ b, byteAt? 0 (c :: s) = some b ∧
    if c.toNat < 128 then b.toNat = c.toNat else 128 ≤ b.toNat := by
  rw [byteAt?, if_pos c.utf8Size_pos]
  unfold String.utf8EncodeChar
  show ∃ b : UInt8, _ ∧ if c.val.toNat < 128 then b.toNat = c.val.toNat else _
  dsimp only
  split_ifs <;> refine ⟨_, rfl, ?_⟩ <;> simp only [UInt8.toNat_ofNat'] <;> omega

theorem utf8Size_of_lt (hc : c.toNat < 128) : c.utf8Size = 1 := by
  rw [Char.utf8Size_eq_one_iff, UInt32.le_iff_toNat_le]
  exact Nat.le_of_lt_succ hc

/-! ## First occurrences -/

/-- Characters of a single byte. -/
def Narrow (p : Char → Bool) : Prop := ∀ d, p d = true → d.toNat < 128

theorem char_ofNat_toNat (b : UInt8) : (Char.ofNat b.toNat).toNat = b.toNat := by
  have hb := b.toNat_lt
  rw [Char.ofNat, dif_pos (.inl (by omega))]
  rfl

theorem narrow_eq {d : Char} (hd : d.toNat < 128) : Narrow (· = d) :=
  fun _ h => of_decide_eq_true h ▸ hd

theorem Narrow.or {p q : Char → Bool} (hp : Narrow p) (hq : Narrow q) :
    Narrow fun d => p d || q d :=
  fun d h => (Bool.or_eq_true _ _ ▸ h).elim (hp d) (hq d)

theorem narrow_blank : Narrow isAsciiBlank :=
  ((((narrow_eq (by decide)).or (narrow_eq (by decide))).or (narrow_eq (by decide))).or
    (narrow_eq (by decide))).or (narrow_eq (by decide))

theorem narrow_name : Narrow Markup.isNameChar := by
  intro d hd
  have hto (last : Char) (hlast : last.toNat < 128) (h : d.val ≤ last.val) : d.toNat < 128 :=
    Nat.lt_of_le_of_lt (UInt32.le_iff_toNat_le.mp h) hlast
  simp only [Markup.isNameChar, Bool.or_eq_true, decide_eq_true_eq] at hd
  rcases hd with ((halphanum | rfl) | rfl) | rfl
  · rcases Bool.or_eq_true_iff.mp halphanum with halpha | hdigit
    · rcases Bool.or_eq_true_iff.mp halpha with hupper | hlower
      · have hupper : 'A'.val ≤ d.val ∧ d.val ≤ 'Z'.val := of_decide_eq_true hupper
        exact hto 'Z' (by decide) hupper.2
      · exact hto 'z' (by decide) (of_decide_eq_true (Bool.and_eq_true_iff.mp hlower).2)
    · exact hto '9' (by decide) (of_decide_eq_true (Bool.and_eq_true_iff.mp hdigit).2)
  · decide
  · decide
  · decide

theorem cut?_takeWhile {z : Char} (hz : z ∈ s) :
    cut? [z] s = some (s.takeWhile (· ≠ z), (s.dropWhile (· ≠ z)).drop 1) := by
  induction s with
  | nil => cases hz
  | cons c s ih =>
    by_cases hc : c = z
    · subst hc
      simp [cut?, after?]
    · have hin : z ∈ s := (List.mem_cons.mp hz).resolve_left (Ne.symm hc)
      have hafter : after? [z] (c :: s) = none := by simp [after?, Ne.symm hc]
      rw [cut?, hafter]
      simp [ih hin, hc]

/-- Without a first occurrence it is the whole text that stands before it. -/
theorem offset?_getD (z : Char) (s : List Char) :
    (offset? [z] s).getD (byteSize s) = byteSize (s.takeWhile (· ≠ z)) := by
  by_cases hz : z ∈ s
  · rw [offset?, cut?_takeWhile hz]
    rfl
  · have hall : s.takeWhile (· ≠ z) = s :=
      List.takeWhile_eq_self_iff.mpr fun c hc => decide_eq_true fun he => hz (he ▸ hc)
    rw [offset?, cut?_singleton_eq_none.mpr hz, hall]
    rfl

end Text

namespace Markup.Cursor

open Text

variable {source s t u : List Char} {c d : Cursor} {p : Char → Bool} {e : Char} {n : Nat}

/-! ## Where a cursor stands -/

/-- The cursor before the last part of a text. -/
def before (source s : List Char) : Cursor := ⟨source, byteSize source - byteSize s⟩

theorem before_append (u s : List Char) : before (u ++ s) s = ⟨u ++ s, byteSize u⟩ := by
  rw [before, byteSize_append, Nat.add_sub_cancel]

theorem byteSize_le_of_suffix (hs : s <:+ t) : byteSize s ≤ byteSize t := by
  obtain ⟨u, rfl⟩ := hs
  rw [byteSize_append]
  exact Nat.le_add_left _ _

theorem position_before (hs : s <:+ source) :
    (before source s).position + byteSize s = byteSize source :=
  Nat.sub_add_cancel (byteSize_le_of_suffix hs)

theorem start_eq (text : String) : start text = before text.toList text.toList := by
  rw [start, before, Nat.sub_self]

theorem rest?_before (hs : s <:+ source) : (before source s).rest? = some s := by
  obtain ⟨u, rfl⟩ := hs
  rw [before_append]
  exact dropBytes?_append u s

/-- A cursor stands on a boundary when it stands before some last part of the text. -/
theorem rest?_eq_some : c.rest? = some s ↔ s <:+ c.source ∧ c = before c.source s := by
  constructor
  · intro h
    obtain ⟨u, hu, hn⟩ := dropBytes?_eq_some.mp h
    obtain ⟨source, position⟩ := c
    obtain rfl : source = u ++ s := hu
    obtain rfl : byteSize u = position := hn
    exact ⟨List.suffix_append u s, (before_append u s).symm⟩
  · rintro ⟨hs, hc⟩
    rw [hc]
    exact rest?_before hs

theorem atEnd_before (hs : s <:+ source) : (before source s).atEnd = s.isEmpty := by
  have hposition := position_before hs
  have hend : byteSize source ≤ (before source s).position ↔ s = [] := by
    rw [← byteSize_eq_zero]
    omega
  cases s with
  | nil => exact decide_eq_true (hend.mpr rfl)
  | cons e s => exact decide_eq_false (mt hend.mp (List.cons_ne_nil e s))

theorem peek?_before (hs : s <:+ source) : (before source s).peek? = byteAt? 0 s := by
  obtain ⟨u, rfl⟩ := hs
  rw [before_append]
  exact byteAt?_append u s

/-- The byte at the cursor tells whether the next character is one of those of a single byte. -/
theorem sees_before (hs : s <:+ source) (hp : Narrow p) :
    (before source s).sees p = s.head?.any p := by
  rw [sees, peek?_before hs]
  cases s with
  | nil => rfl
  | cons e s =>
    obtain ⟨b, hb, hcode⟩ := byteAt?_zero e s
    rw [hb, List.head?_cons, Option.any_some, Option.any_some]
    split at hcode
    · rw [hcode, Char.ofNat_toNat]
    · next he =>
      have hwide : ¬ p e = true := fun h => he (hp e h)
      have hbyte : ¬ p (Char.ofNat b.toNat) = true := by
        intro h
        have := hp _ h
        rw [char_ofNat_toNat] at this
        omega
      rw [Bool.eq_false_iff.mpr hwide, Bool.eq_false_iff.mpr hbyte]

theorem sees_eq_before (hs : s <:+ source) (he : e.toNat < 128) :
    (before source s).sees (· = e) = decide (s.head? = some e) := by
  rw [sees_before hs (narrow_eq he)]
  cases s with
  | nil => rfl
  | cons d s =>
    rw [List.head?_cons, Option.any_some]
    exact decide_eq_decide.mpr Option.some_inj.symm

theorem peek?_isNone_before (hs : s <:+ source) : (before source s).peek?.isNone = s.isEmpty := by
  rw [peek?_before hs]
  cases s with
  | nil => rfl
  | cons e s =>
    obtain ⟨b, hb, -⟩ := byteAt?_zero e s
    rw [hb]
    rfl

theorem slice?_before (hs : u ++ s <:+ source) :
    (before source s).slice? (before source (u ++ s)).position (before source s).position =
      some u := by
  obtain ⟨v, rfl⟩ := hs
  have hsuffix : s <:+ v ++ (u ++ s) := (List.suffix_append u s).trans (List.suffix_append v _)
  have hlast : (before (v ++ (u ++ s)) s).position = byteSize v + byteSize u := by
    have := position_before hsuffix
    simp only [byteSize_append] at this
    omega
  have hfirst : (before (v ++ (u ++ s)) (u ++ s)).position = byteSize v := by
    rw [before_append]
  rw [slice?, hlast, hfirst, if_pos (Nat.le_add_right _ _), Nat.add_sub_cancel_left]
  show (dropBytes? (byteSize v) (v ++ (u ++ s))).bind _ = _
  rw [dropBytes?_append, Option.bind_some, takeBytes?_append]

/-! ## Moving -/

theorem step_before (hs : e :: s <:+ source) (he : e.toNat < 128) :
    (before source (e :: s)).step = before source s := by
  have h₁ := position_before hs
  have h₂ := position_before ((List.suffix_cons e s).trans hs)
  rw [byteSize_cons, utf8Size_of_lt he] at h₁
  exact congrArg (Cursor.mk source) (by omega)

theorem skipWhile?_before (hs : s <:+ source) (hp : Narrow p) :
    (before source s).skipWhile? p = some (before source (s.dropWhile p)) := by
  induction s with
  | nil =>
    rw [skipWhile?, sees_before hs hp]
    rfl
  | cons e s ih =>
    rw [skipWhile?, sees_before hs hp]
    cases he : p e with
    | true =>
      rw [List.head?_cons, Option.any_some, he, if_pos rfl, step_before hs (hp e he),
        List.dropWhile_cons_of_pos he]
      exact ih ((List.suffix_cons e s).trans hs)
    | false =>
      rw [List.head?_cons, Option.any_some, he, List.dropWhile_cons_of_neg (by simp [he])]
      rfl

/-- A cursor that settles comes to the first boundary from where it is. -/
theorem settle?_spec (hn : n ≤ byteSize source) : ∃ s, s <:+ source ∧
    settle? ⟨source, n⟩ = some (before source s) ∧ n ≤ (before source s).position ∧
    ∀ t, t <:+ source → n ≤ (before source t).position →
      (before source s).position ≤ (before source t).position := by
  obtain ⟨k, hk⟩ : ∃ k, n + k = byteSize source := ⟨byteSize source - n, by omega⟩
  induction k generalizing n with
  | zero =>
    obtain rfl : n = byteSize source := hk
    refine ⟨[], List.nil_suffix, ?_, Nat.le_refl _, fun t _ ht => ht⟩
    have hend : (⟨source, byteSize source⟩ : Cursor) = before source [] := rfl
    rw [settle?, hend, rest?_before List.nil_suffix]
    rfl
  | succ k ih =>
    rw [settle?]
    cases hrest : (⟨source, n⟩ : Cursor).rest? with
    | some s =>
      obtain ⟨hs, he⟩ := rest?_eq_some.mp hrest
      have hposition : n = (before source s).position := congrArg Cursor.position he
      exact ⟨s, hs, congrArg some he, Nat.le_of_eq hposition, fun t _ ht => hposition ▸ ht⟩
    | none =>
      obtain ⟨s, hs, hsettle, hle, hfirst⟩ := ih (n := n + 1) (by omega) (by omega)
      refine ⟨s, hs, hsettle, by omega, fun t ht hnt => hfirst t ht ?_⟩
      refine Nat.lt_of_le_of_ne hnt fun he => ?_
      have hstand : (⟨source, n⟩ : Cursor) = before source t := congrArg (Cursor.mk source) he
      rw [hstand, rest?_before ht] at hrest
      cases hrest

theorem advance?_spec (source s : List Char) (n : Nat) : ∃ t, t <:+ source ∧
    (before source s).advance? n = some (before source t) ∧
    min ((before source s).position + n) (byteSize source) ≤ (before source t).position ∧
    ∀ v, v <:+ source →
      min ((before source s).position + n) (byteSize source) ≤ (before source v).position →
      (before source t).position ≤ (before source v).position :=
  settle?_spec (Nat.min_le_right _ _)

theorem before_congr (hp : (before source s).position = (before source t).position) :
    before source s = before source t := congrArg (Cursor.mk source) hp

/-- Whole characters are passed as they are. -/
theorem advance?_append (hs : u ++ s <:+ source) :
    (before source (u ++ s)).advance? (byteSize u) = some (before source s) := by
  have hs' := (List.suffix_append u s).trans hs
  have h₁ := position_before hs
  have h₂ := position_before hs'
  rw [byteSize_append] at h₁
  obtain ⟨t, ht, hadvance, hle, hfirst⟩ := advance?_spec source (u ++ s) (byteSize u)
  have hmin : min ((before source (u ++ s)).position + byteSize u) (byteSize source) =
      (before source s).position := by omega
  rw [hmin] at hle hfirst
  have hsame : before source t = before source s :=
    before_congr (Nat.le_antisymm (hfirst s hs' (Nat.le_refl _)) hle)
  rw [hadvance, hsame]

theorem advance?_run (p : Char → Bool) (hs : s <:+ source) :
    (before source s).advance? (byteSize (s.takeWhile p)) =
      some (before source (s.dropWhile p)) := by
  have hsplit : s.takeWhile p ++ s.dropWhile p <:+ source := by
    rwa [List.takeWhile_append_dropWhile]
  have h := advance?_append hsplit
  rwa [List.takeWhile_append_dropWhile] at h

/-- One byte further is past the next character. -/
theorem advance?_one (hs : e :: s <:+ source) :
    (before source (e :: s)).advance? 1 = some (before source s) := by
  have hs' := (List.suffix_cons e s).trans hs
  have h₁ := position_before hs
  have h₂ := position_before hs'
  have hpos := e.utf8Size_pos
  rw [byteSize_cons] at h₁
  obtain ⟨t, ht, hadvance, hle, hfirst⟩ := advance?_spec source (e :: s) 1
  have h₃ := position_before ht
  have hback : (before source t).position ≤ (before source s).position := hfirst s hs' (by omega)
  -- what is left is shorter than the character with what follows it
  have hsuffix : t <:+ s := by
    rcases List.suffix_or_suffix_of_suffix ht hs with h | h
    · rcases List.suffix_cons_iff.mp h with rfl | h
      · rw [byteSize_cons] at h₃
        omega
      · exact h
    · have := byteSize_le_of_suffix h
      rw [byteSize_cons] at this
      omega
  have := byteSize_le_of_suffix hsuffix
  have hsame : before source t = before source s := before_congr (by omega)
  rw [hadvance, hsame]

/-! ## Lexemes -/

theorem skipBlanks?_before (hs : s <:+ source) :
    (before source s).skipBlanks? = some (before source (skipBlanks s)) :=
  skipWhile?_before hs narrow_blank

theorem pass?_before {mark : List Char} (hs : s <:+ source) :
    (before source s).pass? mark s = some (before source (skipPast mark s)) := by
  rw [pass?, offset?, skipPast]
  cases hcut : cut? mark s with
  | none => rfl
  | some parts =>
    have hparts := cut?_eq_some hcut
    rw [hparts] at hs
    rw [Option.map_some]
    show (before source s).advance? _ = some (before source parts.2)
    rw [hparts, ← byteSize_append]
    exact advance?_append hs

theorem skipPast_cons {x : Char} (hx : x ≠ e) (s : List Char) :
    skipPast [e] (x :: s) = skipPast [e] s := by
  have hafter : after? [e] (x :: s) = none := by simp [after?, hx.symm]
  rw [skipPast, skipPast, cut?, hafter]
  cases cut? [e] s <;> rfl

/-- What follows a comment or a declaration, in a text that begins with one. -/
def declared? : List Char → Option (List Char)
  | '<' :: '!' :: '-' :: '-' :: r => some (skipPast "-->".toList r)
  | '<' :: '!' :: r => some (skipPast ['>'] r)
  | '<' :: '?' :: r => some (skipPast ['>'] r)
  | _ => none

theorem not_isPrefixOf {mark : List Char} (h : ∀ t, mark ++ t ≠ s) :
    ¬ mark.isPrefixOf s = true := by
  intro hp
  obtain ⟨t, ht⟩ := List.isPrefixOf_iff_prefix.mp hp
  exact h t ht

theorem skipDeclaration?_before (hs : s <:+ source) :
    (before source s).skipDeclaration? = some ((declared? s).map (before source)) := by
  rw [skipDeclaration?, rest?_before hs, Option.bind_eq_bind, Option.bind_some]
  have hpass : (before source s).pass? ['>'] s = _ := pass?_before hs
  fun_cases declared? s with
  | case1 r =>
    have hlead : "<!--".toList.isPrefixOf ('<' :: '!' :: '-' :: '-' :: r) = true := rfl
    have hinner : dropBytes? 4 ('<' :: '!' :: '-' :: '-' :: r) = some r :=
      dropBytes?_append "<!--".toList r
    rw [if_pos hlead, hinner, Option.bind_eq_bind, Option.bind_some, offset?, skipPast]
    cases hcut : cut? "-->".toList r with
    | none => rfl
    | some parts =>
      have hparts := cut?_eq_some hcut
      have hsplit : '<' :: '!' :: '-' :: '-' :: r =
          ("<!--".toList ++ parts.1 ++ "-->".toList) ++ parts.2 := by
        rw [hparts]
        rfl
      rw [hsplit] at hs ⊢
      have hadvance := advance?_append hs
      rw [byteSize_append, byteSize_append] at hadvance
      exact congrArg (Option.bind · fun c => some (some c)) hadvance
  | case2 r hr =>
    have hlead : ¬ "<!--".toList.isPrefixOf ('<' :: '!' :: r) = true :=
      not_isPrefixOf fun t ht => hr t (List.cons.inj (List.cons.inj ht).2).2.symm
    have hmark : ("<!".toList.isPrefixOf ('<' :: '!' :: r) ||
      "<?".toList.isPrefixOf ('<' :: '!' :: r)) = true := rfl
    rw [if_neg hlead, if_pos hmark, hpass, skipPast_cons (by decide), skipPast_cons (by decide)]
    rfl
  | case3 r =>
    have hlead : ¬ "<!--".toList.isPrefixOf ('<' :: '?' :: r) = true :=
      not_isPrefixOf fun t ht => by cases ht
    have hmark : ("<!".toList.isPrefixOf ('<' :: '?' :: r) ||
      "<?".toList.isPrefixOf ('<' :: '?' :: r)) = true := rfl
    rw [if_neg hlead, if_pos hmark, hpass, skipPast_cons (by decide), skipPast_cons (by decide)]
    rfl
  | case4 _ h₁ h₂ h₃ =>
    have hlead : ¬ "<!--".toList.isPrefixOf s = true := not_isPrefixOf fun t ht => h₁ t ht.symm
    have hmark : ¬ ("<!".toList.isPrefixOf s || "<?".toList.isPrefixOf s) = true := by
      rw [Bool.or_eq_true]
      exact not_or_intro (not_isPrefixOf fun t ht => h₂ t ht.symm)
        (not_isPrefixOf fun t ht => h₃ t ht.symm)
    rw [if_neg hlead, if_neg hmark]
    rfl

theorem name?_before (hs : s <:+ source) : (before source s).name? =
    some (lowered (s.takeWhile isNameChar), before source (s.dropWhile isNameChar)) := by
  have hsplit : s.takeWhile isNameChar ++ s.dropWhile isNameChar <:+ source := by
    rwa [List.takeWhile_append_dropWhile]
  have hslice := slice?_before hsplit
  rw [List.takeWhile_append_dropWhile] at hslice
  rw [name?, skipWhile?_before hs narrow_name]
  show ((before source s).slice? _ _).bind _ = _
  exact congrArg (Option.bind · fun name => some (lowered name, before source _)) hslice

theorem shift_before (hs : u ++ s <:+ source) :
    { before source (u ++ s) with position := (before source (u ++ s)).position + byteSize u } =
      before source s := by
  have h₁ := position_before hs
  have h₂ := position_before ((List.suffix_append u s).trans hs)
  rw [byteSize_append] at h₁
  exact congrArg (Cursor.mk source) (by omega)

theorem text?_before (hs : s <:+ source) : (before source s).text? =
    some (String.ofList (trim (s.takeWhile (· ≠ '<'))),
      before source (s.dropWhile (· ≠ '<'))) := by
  have hsplit : s.takeWhile (· ≠ '<') ++ s.dropWhile (· ≠ '<') <:+ source := by
    rwa [List.takeWhile_append_dropWhile]
  have hshift := shift_before hsplit
  rw [List.takeWhile_append_dropWhile] at hshift
  rw [text?, rest?_before hs]
  show (takeBytes? ((offset? ['<'] s).getD (byteSize s)) s).bind _ = _
  rw [offset?_getD, take_run, Option.bind_some, hshift]

theorem lowered_eq_empty {name : List Char} : lowered name = "" ↔ name = [] := by
  rw [lowered, ← String.toList_eq_nil_iff, String.toList_ofList, List.map_eq_nil_iff]

theorem accept?_before (hs : s <:+ source) (he : e.toNat < 128) : (before source s).accept? e =
    some (before source (if s.head? = some e then s.tail else s)) := by
  simp only [accept?, sees_eq_before hs he, decide_eq_true_eq]
  by_cases hd : s.head? = some e
  · obtain ⟨s, rfl⟩ := List.head?_eq_some_iff.mp hd
    rw [if_pos hd, if_pos hd, advance?_one hs]
    rfl
  · rw [if_neg hd, if_neg hd]

/-- A quoted value is followed by its quote, or by nothing. -/
theorem drop_quote (s : List Char) :
    (if (s.dropWhile (· ≠ e)).head? = some e then (s.dropWhile (· ≠ e)).tail
      else s.dropWhile (· ≠ e)) = (s.dropWhile (· ≠ e)).drop 1 := by
  cases hd : s.dropWhile (· ≠ e) with
  | nil => rfl
  | cons d t =>
    have hstop := List.head?_dropWhile_not (· ≠ e) s
    rw [hd] at hstop
    have he : d = e := by simpa using hstop
    rw [List.head?_cons, if_pos (congrArg some he)]
    rfl

theorem quoted?_before (hs : e :: s <:+ source) (he : e.toNat < 128) :
    (before source (e :: s)).quoted? e = some (String.ofList (s.takeWhile (· ≠ e)),
      before source ((s.dropWhile (· ≠ e)).drop 1)) := by
  have hs' := (List.suffix_cons e s).trans hs
  rw [quoted?, advance?_one hs]
  simp only [Option.bind_eq_bind, Option.bind_some, rest?_before hs', offset?_getD, take_run,
    advance?_run _ hs', accept?_before ((List.dropWhile_suffix _).trans hs') he, drop_quote]

theorem bare?_before (hs : s <:+ source) : (before source s).bare? =
    some (String.ofList (s.takeWhile (!isBareEnd ·)),
      before source (s.dropWhile (!isBareEnd ·))) := by
  rw [bare?, rest?_before hs]
  simp only [Option.bind_eq_bind, Option.bind_some, take_run, advance?_run _ hs]

theorem value?_before (hs : s <:+ source) :
    (before source s).value? = some ((readValue s).1, before source (readValue s).2) := by
  rw [value?, sees_eq_before hs (by decide), sees_eq_before hs (by decide)]
  cases s with
  | nil => exact bare?_before hs
  | cons d s =>
    simp only [List.head?_cons, Option.some_inj, decide_eq_true_eq, readValue]
    by_cases hdouble : d = '"'
    · subst hdouble
      rw [if_pos rfl, if_pos (.inl rfl)]
      exact quoted?_before hs (by decide)
    · by_cases hsingle : d = '\''
      · subst hsingle
        rw [if_neg hdouble, if_pos rfl, if_pos (.inr rfl)]
        exact quoted?_before hs (by decide)
      · rw [if_neg hdouble, if_neg hsingle, if_neg (not_or_intro hdouble hsingle)]
        exact bare?_before hs

theorem verbatim?_before (hs : s <:+ source) (tag : String) : (before source s).verbatim? tag =
    some (String.ofList (readVerbatim tag s).1, before source (readVerbatim tag s).2) := by
  rw [verbatim?, rest?_before hs, readVerbatim]
  simp only [Option.bind_eq_bind, Option.bind_some, offset?]
  cases hcut : cut? ("</".toList ++ tag.toList ++ ['>']) s with
  | none => rfl
  | some parts =>
    have hparts := cut?_eq_some hcut
    have htake := takeBytes?_append parts.1 ("</".toList ++ tag.toList ++ ['>'] ++ parts.2)
    rw [hparts] at hs
    have hadvance := advance?_append hs
    rw [← List.append_assoc] at htake
    rw [← hparts] at htake hadvance
    rw [byteSize_append] at hadvance
    simp only [Option.map_some, hadvance, htake, Option.bind_some, Option.getD_some]

/-! ## Attributes -/

theorem readAssigned_of_ne {r : List Char} (h : skipBlanks s = r) (hr : r.head? ≠ some '=') :
    readAssigned s = ("true", r) := by
  rw [readAssigned, h]
  split
  · exact absurd rfl hr
  · rfl

theorem assigned?_before {α : Type} (hs : s <:+ source) (k : String → Cursor → Option α) :
    ((before source s).skipBlanks?.bind fun c =>
      if c.sees (· = '=') then
        (c.advance? 1).bind fun c => c.skipBlanks?.bind fun c => c.value?.bind fun a => k a.1 a.2
      else k "true" c) = k (readAssigned s).1 (before source (readAssigned s).2) := by
  have hskip := (skipBlanks_suffix s).trans hs
  rw [skipBlanks?_before hs, Option.bind_some, sees_eq_before hskip (by decide)]
  cases hblank : skipBlanks s with
  | nil =>
    rw [readAssigned_of_ne hblank (by simp)]
    rfl
  | cons d r =>
    rw [hblank] at hskip
    have hr := (List.suffix_cons d r).trans hskip
    simp only [List.head?_cons, Option.some_inj, decide_eq_true_eq]
    by_cases hd : d = '='
    · subst hd
      rw [if_pos rfl, advance?_one hskip, Option.bind_some, skipBlanks?_before hr,
        Option.bind_some, value?_before ((skipBlanks_suffix r).trans hr), readAssigned, hblank]
      rfl
    · rw [readAssigned_of_ne hblank (by simpa using hd), if_neg hd]

/-- One turn of the loop, on the text instead of the cursor. -/
def attrsTurn (source s : List Char) (attrs : NameTable) :
    Turn (NameTable × Cursor) (NameTable × Cursor) :=
  match skipBlanks s with
  | [] => .done (attrs, before source [])
  | d :: r =>
    if d = '>' ∨ d = '/' then .done (attrs, before source (d :: r))
    else if isNameChar d then
      let assigned := readAssigned (r.dropWhile isNameChar)
      .again (attrs.insert (lowered ((d :: r).takeWhile isNameChar)) assigned.1,
        before source assigned.2)
    else .again (attrs, before source r)

theorem attrsTurn?_before (hs : s <:+ source) (attrs : NameTable) :
    (before source s).attrsTurn? attrs = some (attrsTurn source s attrs) := by
  rw [attrsTurn?, attrsTurn, atEnd_before hs]
  cases s with
  | nil => rfl
  | cons x s =>
    have hskip := (skipBlanks_suffix (x :: s)).trans hs
    rw [List.isEmpty_cons, if_neg Bool.false_ne_true, skipBlanks?_before hs,
      Option.bind_eq_bind, Option.bind_some, peek?_isNone_before hskip,
      sees_before hskip ((narrow_eq (by decide)).or (narrow_eq (by decide)))]
    cases hblank : skipBlanks (x :: s) with
    | nil => rfl
    | cons d r =>
      rw [hblank] at hskip
      by_cases hend : d = '>' ∨ d = '/'
      · rw [if_pos (by simpa using hend)]
        simp only [hend, if_true]
      · rw [if_neg (by simpa using hend), name?_before hskip, Option.bind_eq_bind,
          Option.bind_some]
        simp only [hend, if_false]
        by_cases hname : isNameChar d
        · have hrest := (List.dropWhile_suffix isNameChar).trans hskip
          rw [List.dropWhile_cons_of_pos hname] at hrest ⊢
          have htag : ¬ lowered ((d :: r).takeWhile isNameChar) = "" := by
            rw [lowered_eq_empty, List.takeWhile_cons_of_pos hname]
            exact List.cons_ne_nil _ _
          rw [if_neg htag, if_pos hname]
          exact assigned?_before hrest fun value c =>
            some (Turn.again (attrs.insert _ value, c))
        · have htag : lowered ((d :: r).takeWhile isNameChar) = "" := by
            rw [lowered_eq_empty, List.takeWhile_cons_of_neg hname]
          rw [if_pos htag, if_neg hname, List.dropWhile_cons_of_neg hname, advance?_one hskip]
          rfl

/-- The loop over attributes reads what stands before `>`, `/` or the end. -/
theorem attrs?_before (hs : s <:+ source) (attrs : NameTable) : (before source s).attrs? attrs =
    some ((readAttrs s).1.foldl (fun t a => t.insert a.1 a.2) attrs,
      before source (readAttrs s).2) := by
  fun_induction readAttrs s generalizing attrs with
  | case1 s h =>
    rw [attrs?, attrsTurn?_before hs, attrsTurn, h]
    rfl
  | case2 s d r h hend =>
    rw [attrs?, attrsTurn?_before hs, attrsTurn, h]
    simp only [hend, if_true]
    rfl
  | case3 s d r h hend hname name assigned more ih =>
    have hrest : assigned.2 <:+ source :=
      ((readAssigned_suffix _).trans (List.dropWhile_suffix _)).trans
        ((List.suffix_cons d r).trans (h ▸ (skipBlanks_suffix s).trans hs))
    rw [attrs?, attrsTurn?_before hs, attrsTurn, h]
    simp only [hend, if_false, hname, if_true]
    exact ih hrest _
  | case4 s d r h hend hname ih =>
    rw [attrs?, attrsTurn?_before hs, attrsTurn, h]
    simp only [hend, if_false, hname]
    exact ih ((List.suffix_cons d r).trans (h ▸ (skipBlanks_suffix s).trans hs)) _

/-- Attributes are followed by `>`, `/` or the end. -/
theorem readAttrs_rest (s : List Char) :
    ∀ d, (readAttrs s).2.head? = some d → d = '>' ∨ d = '/' := by
  fun_induction readAttrs s with
  | case1 => simp
  | case2 s c r h hend => simpa using hend
  | case3 s c r h hend hname name assigned more ih => exact ih
  | case4 s c r h hend hname ih => exact ih

end Markup.Cursor
end ScreenMarkup
