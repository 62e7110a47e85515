import ScreenMarkup.Proofs.Markup.Escaping
import ScreenMarkup.Proofs.State.Placeholder

/-!
# Substitution

A text that is written piece by piece, with placeholders between its pieces,
shows the texts of their variables in their places. What the variables hold is
not looked at for placeholders again. A text without an opening brace is shown
as it is, and so every text is once it is escaped.
-/

set_option autoImplicit false

namespace ScreenMarkup.Template
open Text

variable {s name rest : List Char}

/-! ## Placeholders where they are written -/

theorem scan_placeholder (hn : '}' ∉ name) (hl : byteSize name ≤ nameLimit) (rest : List Char) :
    scan ('{' :: (name ++ '}' :: rest)) = .placeholder name :: scan rest := by
  have hread : readName? (name ++ '}' :: rest) = some (name, rest) :=
    readName?_eq_some.mpr ⟨rfl, hn, hl⟩
  rw [scan, if_pos rfl]
  split
  · next n r hr =>
    rw [hread] at hr
    cases hr
    rfl
  · next hr =>
    rw [hread] at hr
    cases hr

theorem scan_literal (hs : '{' ∉ s) (rest : List Char) :
    scan (s ++ rest) = s.map .literal ++ scan rest := by
  induction s with
  | nil => rfl
  | cons c s ih =>
    obtain ⟨hc, hs⟩ := not_or.mp (List.mem_cons.not.mp hs)
    rw [List.cons_append, scan, if_neg (Ne.symm hc), ih hs, List.map_cons, List.cons_append]

/-! ## Texts with placeholders -/

/-- A text of literal pieces, with something for a name between each two of them. -/
def interleave (f : String → String) (lead : String) : List (String × String) → String
  | [] => lead
  | (name, literal) :: parts => lead ++ f name ++ interleave f literal parts

def placeholder (name : String) : String := "\x7b" ++ name ++ "\x7d"

/-- A name that a placeholder can hold, and a literal piece without a placeholder. -/
structure Plain (part : String × String) : Prop where
  closed : '}' ∉ part.1.toList
  short : byteSize part.1.toList ≤ nameLimit
  literal : '{' ∉ part.2.toList

/-- What a template shows before its entities are decoded. -/
def expand (s : List Char) (store : Store) : List Char := (scan s).flatMap (Piece.expand store)

theorem render_eq (template : String) (store : Store) :
    render template store = Markup.decodeText (String.ofList (expand template.toList store)) := by
  rw [Markup.decodeText, String.toList_ofList]
  rfl

theorem expand_literal (hs : '{' ∉ s) (rest : List Char) (store : Store) :
    expand (s ++ rest) store = s ++ expand rest store := by
  have hchars (s : List Char) : (s.map Piece.literal).flatMap (Piece.expand store) = s := by
    rw [List.flatMap_map]
    exact List.flatMap_singleton' s
  rw [expand, scan_literal hs, List.flatMap_append, hchars]
  rfl

theorem expand_nil (store : Store) : expand [] store = [] := by
  rw [expand, scan]
  rfl

theorem expand_placeholder {name : String} (hn : '}' ∉ name.toList)
    (hl : byteSize name.toList ≤ nameLimit) (rest : List Char) (store : Store) :
    expand ((placeholder name).toList ++ rest) store =
      (store.text name).toList ++ expand rest store := by
  have htoken : (placeholder name).toList ++ rest = '{' :: (name.toList ++ '}' :: rest) := by
    simp [placeholder]
  rw [htoken, expand, scan_placeholder hn hl, List.flatMap_cons, Piece.expand, String.ofList_toList]
  rfl

theorem expand_interleave (store : Store) {lead : String} {parts : List (String × String)}
    (hlead : '{' ∉ lead.toList) (hparts : ∀ part ∈ parts, Plain part) :
    expand (interleave placeholder lead parts).toList store =
      (interleave store.text lead parts).toList := by
  induction parts generalizing lead with
  | nil =>
    have hall := expand_literal hlead [] store
    rwa [List.append_nil, expand_nil, List.append_nil] at hall
  | cons part parts ih =>
    obtain ⟨hclosed, hshort, hliteral⟩ := hparts part List.mem_cons_self
    have hrest := ih hliteral fun p hp => hparts p (List.mem_cons_of_mem part hp)
    rw [interleave, interleave, String.toList_append, String.toList_append, List.append_assoc,
      expand_literal hlead, expand_placeholder hclosed hshort, hrest]
    simp

/-- Each placeholder is replaced by the text of its variable, whatever that holds, and then the
entities of the whole are decoded. -/
theorem render_interleave (store : Store) (lead : String) (parts : List (String × String))
    (hlead : '{' ∉ lead.toList) (hparts : ∀ part ∈ parts, Plain part) :
    render (interleave placeholder lead parts) store =
      Markup.decodeText (interleave store.text lead parts) := by
  rw [render_eq, expand_interleave store hlead hparts, String.ofList_toList]

/-- A variable that holds a placeholder, next to one whose name has a brace. -/
theorem render_interleave_braces :
    let store := [("a", "\x7bb\x7d"), ("\x7bb", "&lt;"), ("b", "no")].foldl
      (fun store v => store.defineText v.1 .string v.2) ({} : Store)
    ('{' ∉ "x\x7d ".toList ∧ ∀ part ∈ [("a", ""), ("\x7bb", "!"), ("", "&gt;")], Plain part) ∧
      render "x\x7d \x7ba\x7d\x7b\x7bb\x7d!\x7b\x7d&gt;" store = "x\x7d \x7bb\x7d<!>" := by
  intro store
  have hlead : '{' ∉ "x\x7d ".toList := by decide
  have hparts : ∀ part ∈ [("a", ""), ("\x7bb", "!"), ("", "&gt;")], Plain part := by
    simp only [List.forall_mem_cons]
    refine ⟨⟨?_, ?_, ?_⟩, ⟨?_, ?_, ?_⟩, ⟨?_, ?_, ?_⟩, fun _ h => nomatch h⟩ <;> decide
  refine ⟨⟨hlead, hparts⟩, (render_interleave store _ _ hlead hparts).trans ?_⟩
  decide +kernel

/-! ## Escaped texts -/

/-- Any text can be shown as it is. -/
theorem escape_shows_itself (text : String) (store : Store) :
    Markup.decodeText (Markup.escape text) = text ∧ render (Markup.escape text) store = text := by
  have hdecode := Markup.decodeText_escape text
  refine ⟨hdecode, ?_⟩
  have hall := expand_literal (Markup.brace_notMem_escape text) [] store
  rw [List.append_nil, expand_nil, List.append_nil] at hall
  rw [render_eq, hall, String.ofList_toList, hdecode]

end ScreenMarkup.Template
