import Mathlib.Data.List.Infix
import ScreenMarkup.Proofs.Markup.Escaping
import ScreenMarkup.Proofs.Numeric.Digits

/-!
# The entities of a text

An entity stands for one character, by the name of that character or by its
number. Decoding replaces the entities of a text from left to right and copies
everything else. But it also takes a number with a plus sign for the number of
a character, and so it follows the grammar of entities just on the texts
without such a number between `&` and `;`.
-/

set_option autoImplicit false

namespace ScreenMarkup.Markup
open Text Numeric

variable {E : List Char → Char → Prop} {body ds p s t u : List Char} {c d : Char} {n : Nat}

/-! ## The grammar -/

inductive Named : List Char → Char → Prop
  | lt : Named ['l', 't'] '<'
  | gt : Named ['g', 't'] '>'
  | amp : Named ['a', 'm', 'p'] '&'
  | quot : Named ['q', 'u', 'o', 't'] '"'
  | apos : Named ['a', 'p', 'o', 's'] '\''
  | nbsp : Named ['n', 'b', 's', 'p'] ' '

/-- A run of digits after a sign, and after the mark of its radix unless that is ten. -/
inductive Numeral (sign : List Char) : List Char → Nat → Prop
  | decimal {ds : List Char} (hne : ds ≠ []) (hds : ∀ d ∈ ds, d.isDigit = true) :
      Numeral sign (sign ++ ds) (digitsValue ds)
  | hex {x : Char} {ds : List Char} (hx : x = 'x' ∨ x = 'X') (hne : ds ≠ [])
      (hds : ∀ d ∈ ds, isHexDigit d = true) : Numeral sign (x :: (sign ++ ds)) (hexValue ds)

/-- The number of an ASCII character, with a `;` that comes less than ten bytes after the `&`. -/
inductive Numbered (sign : List Char) : List Char → Char → Prop
  | intro {number : List Char} {n : Nat} (hn : Numeral sign number n) (hlow : 1 ≤ n)
      (hhigh : n ≤ 127) (hsize : byteSize ('&' :: '#' :: number) < 10) :
      Numbered sign ('#' :: number) (Char.ofNat n)

/-- What stands between the `&` and the `;` of an entity, and the character it stands for. -/
def Entity (body : List Char) (c : Char) : Prop := Named body c ∨ Numbered [] body c

/-- What is read between `&` and `;`. -/
def ReadAs (body : List Char) (c : Char) : Prop := Entity body c ∨ Numbered ['+'] body c

/-- From left to right, each `&` with a body in `E` and `;` after it is replaced, and every other
character is copied. -/
inductive Replaces (E : List Char → Char → Prop) : List Char → List Char → Prop
  | nil : Replaces E [] []
  | entity {body s t : List Char} {c : Char} (hbody : E body c) (hrest : Replaces E s t) :
      Replaces E ('&' :: (body ++ ';' :: s)) (c :: t)
  | copy {s t : List Char} {c : Char}
      (hnone : ∀ body d rest, c :: s = '&' :: (body ++ ';' :: rest) → ¬ E body d)
      (hrest : Replaces E s t) : Replaces E (c :: s) (c :: t)

/-! ## Reading numbers -/

theorem readCode?_decimal (hlower : 'x' ∉ s) (hupper : 'X' ∉ s) :
    readCode? s = readDecimal? s := by
  unfold readCode?
  split
  · simp at hlower
  · simp at hupper
  · rfl

theorem readCode?_numeral {sign : List Char} (hsign : sign = [] ∨ sign = ['+'])
    (hn : Numeral sign s n) : readCode? s = some n := by
  have hrun (ds : List Char) : sign ++ ds = ds ∨ sign ++ ds = '+' :: ds := by
    rcases hsign with rfl | rfl <;> simp
  cases hn with
  | @decimal ds hne hds =>
    have hmark {x : Char} (hx : x = 'x' ∨ x = 'X') : x ∉ sign ++ ds := by
      intro hmem
      rcases hsign with rfl | rfl <;> rcases hx with rfl | rfl <;> simp at hmem <;>
        exact absurd (hds _ hmem) (by decide)
    rw [readCode?_decimal (hmark (.inl rfl)) (hmark (.inr rfl))]
    exact readDecimal?_eq_some.mpr ⟨ds, hrun ds, hne, hds, rfl⟩
  | @hex x ds hx hne hds =>
    have hhex := readHex?_eq_some.mpr ⟨ds, hrun ds, hne, hds, rfl⟩
    rcases hx with rfl | rfl <;> exact hhex

theorem readCode?_eq_some :
    readCode? s = some n ↔ Numeral [] s n ∨ Numeral ['+'] s n := by
  constructor
  · intro h
    unfold readCode? at h
    split at h
    · obtain ⟨ds, rfl | rfl, hne, hds, rfl⟩ := readHex?_eq_some.mp h
      · exact .inl (.hex (.inl rfl) hne hds)
      · exact .inr (.hex (.inl rfl) hne hds)
    · obtain ⟨ds, rfl | rfl, hne, hds, rfl⟩ := readHex?_eq_some.mp h
      · exact .inl (.hex (.inr rfl) hne hds)
      · exact .inr (.hex (.inr rfl) hne hds)
    · obtain ⟨ds, rfl | rfl, hne, hds, rfl⟩ := readDecimal?_eq_some.mp h
      · exact .inl (.decimal hne hds)
      · exact .inr (.decimal hne hds)
  · rintro (h | h)
    · exact readCode?_numeral (.inl rfl) h
    · exact readCode?_numeral (.inr rfl) h

/-! ## Reading entities -/

theorem entityChar?_named (h : Named body c) :
    byteSize body ≤ entityBodyLimit ∧ entityChar? body = some c := by
  cases h <;> decide +kernel

theorem named_of_lookup (h : entityNames.lookup (String.ofList body) = some c) : Named body c := by
  obtain ⟨l₁, l₂, he, -⟩ := List.lookup_eq_some_iff.mp h
  have hmem : (String.ofList body, c) ∈ entityNames := by simp [he]
  have hbody {name : String} (hname : String.ofList body = name) : body = name.toList := by
    rw [← hname, String.toList_ofList]
  simp only [entityNames, List.mem_cons, Prod.mk.injEq, List.not_mem_nil, or_false] at hmem
  rcases hmem with ⟨hb, rfl⟩ | ⟨hb, rfl⟩ | ⟨hb, rfl⟩ | ⟨hb, rfl⟩ | ⟨hb, rfl⟩ | ⟨hb, rfl⟩ <;>
    rw [hbody hb]
  · exact .lt
  · exact .gt
  · exact .amp
  · exact .quot
  · exact .apos
  · exact .nbsp

theorem byteSize_number (number : List Char) :
    byteSize ('#' :: number) ≤ entityBodyLimit ↔ byteSize ('&' :: '#' :: number) < 10 := by
  have hbyte : byteSize ('&' :: '#' :: number) = 1 + byteSize ('#' :: number) := rfl
  rw [hbyte, entityBodyLimit]
  omega

/-- Short bodies that stand for a character. -/
theorem entityChar?_eq_some :
    byteSize body ≤ entityBodyLimit ∧ entityChar? body = some c ↔ ReadAs body c := by
  constructor
  · rintro ⟨hsize, hchar⟩
    unfold entityChar? at hchar
    split at hchar
    · next number =>
      simp only [Option.bind_eq_bind, Option.bind_eq_some_iff, Option.ite_none_right_eq_some,
        Option.some.injEq] at hchar
      obtain ⟨n, hn, ⟨hlow, hhigh⟩, rfl⟩ := hchar
      have hshort := (byteSize_number number).mp hsize
      rcases readCode?_eq_some.mp hn with hn | hn
      · exact .inl (.inr ⟨hn, hlow, hhigh, hshort⟩)
      · exact .inr ⟨hn, hlow, hhigh, hshort⟩
    · exact .inl (.inl (named_of_lookup hchar))
  · have hnumbered {sign : List Char} (hsign : sign = [] ∨ sign = ['+'])
        (h : Numbered sign body c) :
        byteSize body ≤ entityBodyLimit ∧ entityChar? body = some c := by
      obtain ⟨hn, hlow, hhigh, hshort⟩ := h
      refine ⟨(byteSize_number _).mpr hshort, ?_⟩
      simp [entityChar?, readCode?_numeral hsign hn, hlow, hhigh]
    rintro ((h | h) | h)
    · exact entityChar?_named h
    · exact hnumbered (.inl rfl) h
    · exact hnumbered (.inr rfl) h

/-! ## The characters of a body -/

theorem Numeral.mem {sign : List Char} (hn : Numeral sign s n) (hd : d ∈ s) :
    d ∈ sign ∨ isHexDigit d = true ∨ d = 'x' ∨ d = 'X' := by
  cases hn with
  | decimal hne hds =>
    rcases List.mem_append.mp hd with h | h
    · exact .inl h
    · exact .inr (.inl (by simp [isHexDigit, hds d h]))
  | hex hx hne hds =>
    rcases List.mem_cons.mp hd with rfl | h
    · exact .inr (.inr hx)
    · rcases List.mem_append.mp h with h | h
      · exact .inl h
      · exact .inr (.inl (hds d h))

/-- A body has no character that matters to how a text is cut, and a plus sign only before a
number. -/
theorem Numbered.not_mem {sign : List Char} (hbody : Numbered sign body c) (hd : d ∉ sign)
    (hmark : d = '&' ∨ d = ';' ∨ d = '+') : d ∉ body := by
  obtain ⟨hn, -, -, -⟩ := hbody
  intro hmem
  rcases List.mem_cons.mp hmem with h | h
  · rcases hmark with rfl | rfl | rfl <;> cases h
  · rcases hn.mem h with h | h
    · exact hd h
    · rcases hmark with rfl | rfl | rfl <;> revert h <;> decide

theorem Named.not_mem (hbody : Named body c) (hmark : d = '&' ∨ d = ';' ∨ d = '+') :
    d ∉ body := by
  rcases hmark with rfl | rfl | rfl <;> cases hbody <;> decide

theorem Entity.not_mem (hbody : Entity body c) (hmark : d = '&' ∨ d = ';' ∨ d = '+') :
    d ∉ body := by
  rcases hbody with h | h
  · exact h.not_mem hmark
  · exact h.not_mem List.not_mem_nil hmark

theorem ReadAs.not_mem (hbody : ReadAs body c) (hmark : d = '&' ∨ d = ';') : d ∉ body := by
  rcases hbody with h | h
  · exact h.not_mem (by tauto)
  · exact h.not_mem (by rcases hmark with rfl | rfl <;> decide) (by tauto)

theorem Numbered.plus_mem (hbody : Numbered ['+'] body c) : '+' ∈ body := by
  obtain ⟨hn, -, -, -⟩ := hbody
  cases hn <;> simp

/-- No number with a sign is an entity. -/
theorem Entity.not_numbered (hbody : Entity body c) (d : Char) : ¬ Numbered ['+'] body d :=
  fun h => hbody.not_mem (.inr (.inr rfl)) h.plus_mem

/-! ## Replacement -/

/-- Bodies end at their `;`, have no other `&`, and stand for one character each. -/
structure Marked (E : List Char → Char → Prop) : Prop where
  closed : ∀ body c, E body c → ';' ∉ body
  single : ∀ body c, E body c → '&' ∉ body
  unique : ∀ body c d, E body c → E body d → c = d

theorem marked_readAs : Marked ReadAs where
  closed _ _ h := h.not_mem (.inr rfl)
  single _ _ h := h.not_mem (.inl rfl)
  unique _ _ _ hc hd := by
    have hread := (entityChar?_eq_some.mpr hc).2
    rw [(entityChar?_eq_some.mpr hd).2, Option.some.injEq] at hread
    exact hread.symm

theorem marked_entity : Marked Entity where
  closed body c h := marked_readAs.closed body c (.inl h)
  single body c h := marked_readAs.single body c (.inl h)
  unique body c d hc hd := marked_readAs.unique body c d (.inl hc) (.inl hd)

theorem Replaces.of_entity (hE : Marked E) (hbody : E body c)
    (h : Replaces E ('&' :: (body ++ ';' :: s)) t) : ∃ u, t = c :: u ∧ Replaces E s u := by
  generalize hr : '&' :: (body ++ ';' :: s) = r at h
  cases h with
  | nil => cases hr
  | @entity body' s' u c' hbody' hrest =>
    obtain ⟨rfl, rfl⟩ := first_cut (hE.closed body c hbody) (hE.closed body' c' hbody')
      (List.cons.inj hr).2
    obtain rfl := hE.unique body c c' hbody hbody'
    exact ⟨u, rfl, hrest⟩
  | copy hnone hrest => exact absurd hbody (hnone body c s hr.symm)

theorem Replaces.of_copy (hnone : ∀ body d rest, c :: s = '&' :: (body ++ ';' :: rest) → ¬ E body d)
    (h : Replaces E (c :: s) t) : ∃ u, t = c :: u ∧ Replaces E s u := by
  generalize hr : c :: s = r at h
  cases h with
  | nil => cases hr
  | @entity body' s' u c' hbody' hrest => exact absurd hbody' (hnone body' c' s' hr)
  | @copy s' u c' hnone' hrest =>
    cases hr
    exact ⟨u, rfl, hrest⟩

theorem Replaces.unique (hE : Marked E) (ht : Replaces E s t) (hu : Replaces E s u) : t = u := by
  induction ht generalizing u with
  | nil =>
    cases hu
    rfl
  | entity hbody hrest ih =>
    obtain ⟨v, rfl, hv⟩ := hu.of_entity hE hbody
    rw [ih hv]
  | copy hnone hrest ih =>
    obtain ⟨v, rfl, hv⟩ := hu.of_copy hnone
    rw [ih hv]

/-- A part without `&` is copied. -/
theorem Replaces.of_append (hp : '&' ∉ p) (h : Replaces E (p ++ s) t) :
    ∃ u, t = p ++ u ∧ Replaces E s u := by
  induction p generalizing t with
  | nil => exact ⟨t, rfl, h⟩
  | cons c p ih =>
    obtain ⟨hc, hp⟩ := not_or.mp (List.mem_cons.not.mp hp)
    obtain ⟨v, rfl, hv⟩ := h.of_copy fun body d rest he => absurd (List.cons.inj he).1.symm hc
    obtain ⟨u, rfl, hu⟩ := ih hp hv
    exact ⟨u, rfl, hu⟩

theorem readEntity?_eq_some :
    readEntity? s = some (c, t) ↔ ∃ body, s = body ++ ';' :: t ∧ ReadAs body c := by
  constructor
  · intro h
    simp only [readEntity?, Option.bind_eq_bind, Option.bind_eq_some_iff] at h
    obtain ⟨⟨body, rest⟩, hcut, h⟩ := h
    simp only [Option.ite_none_right_eq_some, Option.bind_eq_some_iff, Option.some.injEq,
      Prod.mk.injEq] at h
    obtain ⟨hsize, d, hd, rfl, rfl⟩ := h
    exact ⟨body, (cut?_singleton.mp hcut).2, entityChar?_eq_some.mp ⟨hsize, hd⟩⟩
  · rintro ⟨body, rfl, hbody⟩
    obtain ⟨hsize, hchar⟩ := entityChar?_eq_some.mpr hbody
    exact readEntity?_append (hbody.not_mem (.inr rfl)) hsize hchar t

/-- Decoding replaces what is read as an entity. -/
theorem replaces_decode (s : List Char) : Replaces ReadAs s (decode s) := by
  fun_induction decode s with
  | case1 => exact .nil
  | case2 s d rest h ih =>
    obtain ⟨body, rfl, hbody⟩ := readEntity?_eq_some.mp h
    exact .entity hbody ih
  | case3 s h ih =>
    refine .copy (fun body d rest he hbody => ?_) ih
    rw [readEntity?_eq_some.mpr ⟨body, (List.cons.inj he).2, hbody⟩] at h
    cases h
  | case4 c s hc ih => exact .copy (fun body d rest he _ => hc (List.cons.inj he).1) ih

/-! ## Numbers with a sign -/

/-- Somewhere a number with a plus sign stands between `&` and `;`. -/
def HasSigned (s : List Char) : Prop :=
  ∃ body c, Numbered ['+'] body c ∧ '&' :: (body ++ [';']) <:+: s

theorem hasSigned_cons :
    HasSigned (c :: s) ↔
      (∃ body d rest, c :: s = '&' :: (body ++ ';' :: rest) ∧ Numbered ['+'] body d) ∨
        HasSigned s := by
  simp only [HasSigned, List.infix_cons_iff]
  constructor
  · rintro ⟨body, d, hbody, ⟨rest, hrest⟩ | hinfix⟩
    · exact .inl ⟨body, d, rest, by simp [← hrest], hbody⟩
    · exact .inr ⟨body, d, hbody, hinfix⟩
  · rintro (⟨body, d, rest, he, hbody⟩ | ⟨body, d, hbody, hinfix⟩)
    · exact ⟨body, d, hbody, .inl ⟨rest, by simp [he]⟩⟩
    · exact ⟨body, d, hbody, .inr hinfix⟩

theorem hasSigned_append (hp : '&' ∉ p) : HasSigned (p ++ s) ↔ HasSigned s := by
  induction p with
  | nil => rfl
  | cons c p ih =>
    obtain ⟨hc, hp⟩ := not_or.mp (List.mem_cons.not.mp hp)
    rw [List.cons_append, hasSigned_cons, ih hp, or_iff_right]
    rintro ⟨body, d, rest, he, -⟩
    exact hc (List.cons.inj he).1.symm

/-- Behind an entity there is nothing to look for before its end. -/
theorem hasSigned_entity (hbody : Entity body c) :
    HasSigned ('&' :: (body ++ ';' :: s)) ↔ HasSigned s := by
  have hclosed : '&' ∉ body ++ [';'] := by simpa using hbody.not_mem (.inl rfl)
  have hrest : HasSigned (body ++ ';' :: s) ↔ HasSigned s := by
    rw [← hasSigned_append (s := s) hclosed, List.append_assoc, List.singleton_append]
  rw [hasSigned_cons, hrest, or_iff_right]
  rintro ⟨body', d, rest, he, hsigned⟩
  obtain ⟨rfl, -⟩ := first_cut (hbody.not_mem (.inr (.inl rfl)))
    (hsigned.not_mem (by decide) (.inr (.inl rfl))) (List.cons.inj he).2
  exact hbody.not_numbered d hsigned

/-- Without such a number, what is read is what the grammar allows. -/
theorem Replaces.to_entity (h : Replaces ReadAs s t) (hs : ¬ HasSigned s) :
    Replaces Entity s t := by
  induction h with
  | nil => exact .nil
  | @entity body s t c hbody hrest ih =>
    rcases hbody with hbody | hbody
    · exact .entity hbody (ih ((hasSigned_entity hbody).not.mp hs))
    · exact absurd (hasSigned_cons.mpr (.inl ⟨body, c, s, rfl, hbody⟩)) hs
  | @copy s t c hnone hrest ih =>
    refine .copy (fun body d rest he hbody => hnone body d rest he (.inl hbody)) (ih ?_)
    exact fun h => hs (hasSigned_cons.mpr (.inr h))

/-- Each such number is read as one character, and copied by the grammar, so the grammar never
gives the shorter text. -/
theorem Replaces.length_le (hread : Replaces ReadAs s t) (hu : Replaces Entity s u) :
    t.length ≤ u.length ∧ (t = u → ¬ HasSigned s) := by
  induction hread generalizing u with
  | nil =>
    cases hu
    exact ⟨le_refl _, fun _ ⟨_, _, _, h⟩ => by simpa using List.eq_nil_of_infix_nil h⟩
  | @entity body s t c hbody hrest ih =>
    rcases hbody with hbody | hbody
    · obtain ⟨v, rfl, hv⟩ := hu.of_entity marked_entity hbody
      obtain ⟨hle, hnone⟩ := ih hv
      refine ⟨by simpa using hle, fun he => ?_⟩
      rw [hasSigned_entity hbody]
      exact hnone (List.cons.inj he).2
    · have hclosed : '&' ∉ body ++ [';'] := by simpa using hbody.not_mem (by decide) (.inl rfl)
      obtain ⟨w, rfl, hw⟩ := hu.of_copy fun body' d rest he hentity => by
        obtain ⟨rfl, -⟩ := first_cut (hbody.not_mem (by decide) (.inr (.inl rfl)))
          (hentity.not_mem (.inr (.inl rfl))) (List.cons.inj he).2
        exact hentity.not_numbered c hbody
      rw [← List.singleton_append, ← List.append_assoc] at hw
      obtain ⟨v, rfl, hv⟩ := hw.of_append hclosed
      have hle := (ih hv).1
      constructor
      · simp
        omega
      · intro he
        have hlength := congrArg List.length he
        simp at hlength
        omega
  | @copy s t c hnone hrest ih =>
    obtain ⟨v, rfl, hv⟩ := hu.of_copy fun body d rest he hbody => hnone body d rest he (.inl hbody)
    obtain ⟨hle, hnone'⟩ := ih hv
    refine ⟨by simpa using hle, fun he hs => ?_⟩
    rcases hasSigned_cons.mp hs with ⟨body, d, rest, hcut, hbody⟩ | hs
    · exact hnone body d rest hcut (.inr hbody)
    · exact hnone' (List.cons.inj he).2 hs

theorem replaces_entity_iff (s : List Char) : Replaces Entity s (decode s) ↔ ¬ HasSigned s :=
  ⟨fun h => ((replaces_decode s).length_le h).2 rfl, (replaces_decode s).to_entity⟩

/-- Decoding replaces, from left to right, exactly the named entities and the numbers from 1 to
127, with a plus sign before their digits or without one. So it follows the grammar, which has no
plus signs, exactly on the texts where none of these numbers has one. -/
theorem decodeText_replaces_iff (text result : String) :
    (Replaces ReadAs text.toList result.toList ↔ result = decodeText text) ∧
      (Replaces Entity text.toList (decodeText text).toList ↔ ¬ HasSigned text.toList) := by
  have hdecode : (decodeText text).toList = decode text.toList := String.toList_ofList
  rw [hdecode]
  refine ⟨⟨fun h => ?_, ?_⟩, replaces_entity_iff text.toList⟩
  · rw [← String.toList_inj, hdecode]
    exact h.unique marked_readAs (replaces_decode text.toList)
  · rintro rfl
    rw [hdecode]
    exact replaces_decode text.toList

/-- The number 65 with a plus sign is read as an `A`. -/
theorem not_decodeText_replaces :
    ¬ ∀ text : String, Replaces Entity text.toList (decodeText text).toList := by
  intro h
  have hnumeral : Numeral ['+'] ['+', '6', '5'] (digitsValue ['6', '5']) :=
    .decimal (by simp) (by simp)
  have hsigned : Numbered ['+'] "#+65".toList 'A' :=
    .intro hnumeral (by decide) (by decide) (by decide)
  have htext := (replaces_entity_iff "&#+65;".toList).mp (by simpa [decodeText] using h "&#+65;")
  exact htext ⟨_, _, hsigned, List.infix_refl _⟩

end ScreenMarkup.Markup
