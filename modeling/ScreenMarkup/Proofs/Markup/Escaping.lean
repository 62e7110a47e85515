import ScreenMarkup.Markup.Entity
import ScreenMarkup.Proofs.Text.Cutting

/-!
# Escaping

A text is escaped by writing as entities the characters that mean something in
markup or in templates. Decoding reads each of these entities where it was
written, and so it gives every text back.
-/

set_option autoImplicit false

namespace ScreenMarkup.Markup
open Text

variable {c : Char} {body s : List Char}

/-! ## Decoding what is written -/

theorem decode_cons (hc : c ≠ '&') (s : List Char) : decode (c :: s) = c :: decode s := by
  rw [decode, if_neg hc]

theorem readEntity?_append (hs : ';' ∉ body) (hl : byteSize body ≤ entityBodyLimit)
    (hc : entityChar? body = some c) (s : List Char) :
    readEntity? (body ++ ';' :: s) = some (c, s) := by
  have hcut : cut? [';'] (body ++ ';' :: s) = some (body, s) := cut?_singleton.mpr ⟨hs, rfl⟩
  rw [readEntity?, hcut]
  simp [hl, hc]

theorem decode_entity (hs : ';' ∉ body) (hl : byteSize body ≤ entityBodyLimit)
    (hc : entityChar? body = some c) (s : List Char) :
    decode ('&' :: (body ++ ';' :: s)) = c :: decode s := by
  rw [decode, if_pos rfl]
  split
  · next d rest hr =>
    rw [readEntity?_append hs hl hc] at hr
    cases hr
    rfl
  · next hr =>
    rw [readEntity?_append hs hl hc] at hr
    cases hr

/-! ## Escaping -/

/-- The characters that are escaped, and what stands between `&` and `;` for them. -/
def escapes : List (Char × String) :=
  [('&', "amp"), ('<', "lt"), ('>', "gt"), ('"', "quot"), ('\'', "apos"), ('{', "#123")]

def escapeChar (c : Char) : List Char :=
  match escapes.lookup c with
  | some body => '&' :: (body.toList ++ [';'])
  | none => [c]

/-- The text with each of its characters escaped that has to be. -/
def escape (text : String) : String := String.ofList (text.toList.flatMap escapeChar)

/-- A character is escaped by an entity that stands for it, or it is written as it is. -/
theorem escapeChar_cases (c : Char) :
    (∃ body : String, escapeChar c = '&' :: (body.toList ++ [';']) ∧ (c, body) ∈ escapes) ∨
      escapeChar c = [c] ∧ ∀ e ∈ escapes, e.1 ≠ c := by
  unfold escapeChar
  split
  · next body hb =>
    obtain ⟨l₁, l₂, he, -⟩ := List.lookup_eq_some_iff.mp hb
    exact .inl ⟨body, rfl, by simp [he]⟩
  · next hb =>
    refine .inr ⟨rfl, fun e he hc => ?_⟩
    have hne := List.lookup_eq_none_iff.mp hb e he
    simp [hc] at hne

theorem escapes_entity : ∀ e ∈ escapes, ';' ∉ e.2.toList ∧
    byteSize e.2.toList ≤ entityBodyLimit ∧ entityChar? e.2.toList = some e.1 ∧
      '{' ∉ e.2.toList := by
  decide +kernel

theorem decode_escapeChar (c : Char) (s : List Char) :
    decode (escapeChar c ++ s) = c :: decode s := by
  rcases escapeChar_cases c with ⟨body, he, hmem⟩ | ⟨he, hne⟩
  · obtain ⟨hs, hl, hc, -⟩ := escapes_entity _ hmem
    rw [he, List.cons_append, List.append_assoc, List.singleton_append, decode_entity hs hl hc]
  · rw [he, List.singleton_append, decode_cons fun hc => hne ('&', "amp") (by decide) hc.symm]

/-- No escape runs into the text around it, and none is decoded twice. -/
theorem decodeText_escape (text : String) : decodeText (escape text) = text := by
  have hdecode (s : List Char) : decode (s.flatMap escapeChar) = s := by
    induction s with
    | nil => rw [List.flatMap_nil, decode]
    | cons c s ih => rw [List.flatMap_cons, decode_escapeChar, ih]
  rw [decodeText, escape, String.toList_ofList, hdecode, String.ofList_toList]

theorem brace_notMem_escape (text : String) : '{' ∉ (escape text).toList := by
  rw [escape, String.toList_ofList, List.mem_flatMap]
  rintro ⟨c, -, hc⟩
  rcases escapeChar_cases c with ⟨body, he, hmem⟩ | ⟨he, hne⟩
  · obtain ⟨-, -, -, hb⟩ := escapes_entity _ hmem
    rw [he] at hc
    simp [hb] at hc
  · rw [he, List.mem_singleton] at hc
    exact hne ('{', "#123") (by decide) hc

end ScreenMarkup.Markup
