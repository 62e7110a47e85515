import Mathlib.Data.List.DropRight
import ScreenMarkup.Proofs.Style.Nesting

/-!
# Declarations by splitting

A block is the text between its braces. Its declarations are the segments
between the semicolons that stand in no nested block, and of each segment only
what follows its last nested block counts. So reading the tokens of a block
one by one is splitting its text.
-/

set_option autoImplicit false

namespace ScreenMarkup

open Text

namespace Style

/-! ## Splitting -/

/-- The segments between the semicolons outside nested blocks, after the beginning `segment` of
the first one, which leaves `depth` blocks open. -/
def segments (depth : Nat) (segment : List Char) : List Char → List (List Char)
  | [] => [segment]
  | c :: s =>
    if c = ';' ∧ depth = 0 then segment :: segments 0 [] s
    else
      segments (if c = '{' then depth + 1 else if c = '}' then depth - 1 else depth)
        (segment ++ [c]) s

theorem segments_semicolon (segment s : List Char) :
    segments 0 segment (';' :: s) = segment :: segments 0 [] s := rfl

/-- Every other character belongs to the segment and may change the depth. -/
theorem segments_cons {c : Char} {d e : Nat} (hc : ¬(c = ';' ∧ d = 0)) (he : depth? d [c] = some e)
    (segment s : List Char) : segments d segment (c :: s) = segments e (segment ++ [c]) s := by
  rw [segments, if_neg hc]
  by_cases hopen : c = '{'
  · subst hopen
    cases he
    rfl
  by_cases hclose : c = '}'
  · subst hclose
    cases d with
    | zero => cases he
    | succ d =>
      cases he
      rfl
  · rw [depth?_other hopen hclose] at he
    cases he
    rw [if_neg hopen, if_neg hclose]

theorem segments_ne_nil (d : Nat) (segment s : List Char) : segments d segment s ≠ [] := by
  induction s generalizing d segment with
  | nil => exact List.cons_ne_nil _ _
  | cons c s ih =>
    unfold segments
    split
    · exact List.cons_ne_nil _ _
    · exact ih _ _

/-- Nothing is lost by splitting. -/
theorem intercalate_segments (d : Nat) (segment s : List Char) :
    [';'].intercalate (segments d segment s) = segment ++ s := by
  induction s generalizing d segment with
  | nil => simp [segments]
  | cons c s ih =>
    unfold segments
    split
    · next h =>
      rw [List.intercalate_cons_of_ne_nil (segments_ne_nil 0 [] s), ih, h.1]
      simp
    · rw [ih]
      simp

/-- What follows the last nested block of a segment; an unclosed block runs to the end. -/
def afterBlocks (segment : List Char) : List Char :=
  if segment.count '}' < segment.count '{' then [] else segment.rtakeWhile (· ≠ '}')

/-- Name and value stand before and after the first colon. A text without one declares nothing,
and neither does one with an empty side. -/
def pair? (text : List Char) : Option (String × String) :=
  match cut? [':'] text with
  | some (name, value) =>
    if trim name = [] ∨ trim value = [] then none
    else some (String.ofList (trim name), String.ofList (trim value))
  | none => none

/-- The declarations of a block by splitting its text; of two for one name the later one holds. -/
def splitTable (body : List Char) : NameTable :=
  NameTable.ofList (((segments 0 [] body).map afterBlocks).filterMap pair?)

/-- `body` is the block of a brace that stands right before `s`: the text up to the matching brace,
or all of it when nothing closes the block. -/
def BlockOf (s body : List Char) : Prop :=
  (Balanced body ∧ ∃ rest, s = body ++ '}' :: rest) ∨ (Nested body ∧ s = body)

theorem exists_blockOf (s : List Char) : ∃ body, BlockOf s body := by
  rcases depth?_cases 0 s with ⟨body, rest, hs, hb⟩ | hn
  · exact ⟨body, .inl ⟨balanced_iff.mpr hb, rest, hs⟩⟩
  · exact ⟨s, .inr ⟨nested_iff.mpr hn, rfl⟩⟩

theorem afterBlocks_of_open {segment : List Char}
    (h : segment.count '}' < segment.count '{') : afterBlocks segment = [] := if_pos h

theorem afterBlocks_close (segment : List Char) : afterBlocks (segment ++ ['}']) = [] := by
  unfold afterBlocks
  split
  · rfl
  · rw [List.rtakeWhile_concat_neg _ _ _ (by decide)]

/-- Outside blocks, what is no brace counts. -/
theorem afterBlocks_append {c : Char} (hopen : c ≠ '{') (hclose : c ≠ '}') {segment : List Char}
    (h : segment.count '{' = segment.count '}') :
    afterBlocks (segment ++ [c]) = afterBlocks segment ++ [c] := by
  have hlast := List.rtakeWhile_concat_pos (· ≠ '}') segment c (decide_eq_true hclose)
  rw [afterBlocks, afterBlocks, if_neg, if_neg, hlast]
  · omega
  · simp [List.count_append, hopen, hclose, h]

end Style

namespace Rule
open Style

/-! ## Reading -/

namespace Pending

/-- What is pending after a text. -/
def after (text : List Char) : Pending :=
  match cut? [':'] text with
  | some (n, v) => value n v
  | none => name text

theorem after_name {text : List Char} (h : ':' ∉ text) : after text = name text := by
  rw [after, cut?_singleton_eq_none.mpr h]

theorem after_value {n : List Char} (hn : ':' ∉ n) (v : List Char) :
    after (n ++ ':' :: v) = value n v := by
  rw [after, cut?_singleton.mpr ⟨hn, rfl⟩]

theorem after_append {c : Char} (hc : c ≠ ':') (text : List Char) :
    after (text ++ [c]) = (after text).push [c] := by
  by_cases h : ':' ∈ text
  · obtain ⟨n, v, rfl, hn⟩ := List.eq_append_cons_of_mem h
    rw [List.append_assoc, List.cons_append, after_value hn, after_value hn]
    rfl
  · rw [after_name h, after_name]
    · rfl
    · simpa [h] using Ne.symm hc

theorem push_push (p : Pending) (s t : List Char) : (p.push s).push t = p.push (s ++ t) := by
  cases p <;> simp [push]

theorem commit_after (text : List Char) (t : NameTable) :
    (after text).commit t = (pair? text).toList.foldl (fun t e => t.insert e.1 e.2) t := by
  unfold after pair?
  cases cut? [':'] text with
  | none => rfl
  | some parts =>
    obtain ⟨n, v⟩ := parts
    by_cases h : trim n = [] ∨ trim v = []
    · simp [commit, h]
    · simp [commit, h]

end Pending

/-- Outside blocks a character that is no punctuation is added to what is pending. -/
theorem declarations_extend (c : Char) (p : Pending) (t : NameTable) (ts : List Token) :
    declarations 0 p t (Token.extend c ts) = declarations 0 (p.push [c]) t ts := by
  cases ts with
  | nil => rfl
  | cons u ts =>
    cases u with
    | chunk s =>
      show declarations 0 (p.push (c :: s)) t ts = declarations 0 ((p.push [c]).push s) t ts
      rw [Pending.push_push]
      rfl
    | _ => rfl

theorem declarations_extend_nested (d : Nat) (c : Char) (p : Pending) (t : NameTable)
    (ts : List Token) :
    declarations (d + 1) p t (Token.extend c ts) = declarations (d + 1) p t ts := by
  cases ts with
  | nil => rfl
  | cons u ts => cases u <;> rfl

theorem declarations_colon (text : List Char) (t : NameTable) (ts : List Token) :
    declarations 0 (.after text) t (.colon :: ts) =
      declarations 0 (.after (text ++ [':'])) t ts := by
  by_cases h : ':' ∈ text
  · obtain ⟨n, v, rfl, hn⟩ := List.eq_append_cons_of_mem h
    rw [List.append_assoc, List.cons_append, Pending.after_value hn, Pending.after_value hn]
    rfl
  · rw [Pending.after_name h, Pending.after_value h]
    rfl

/-- One character more: what is pending is what follows the last block of the segment so far, and
inside a block it is nothing. -/
theorem declarations_prepend {c : Char} {d e : Nat} {segment : List Char}
    (hd : segment.count '{' = d + segment.count '}') (hc : ¬(c = ';' ∧ d = 0))
    (he : depth? d [c] = some e) (t : NameTable) (ts : List Token) :
    declarations d (.after (afterBlocks segment)) t (prepend c ts) =
      declarations e (.after (afterBlocks (segment ++ [c]))) t ts := by
  have heven := (depth?_eq_some_iff.mp he).2
  have hinside (h : 0 < e) : afterBlocks (segment ++ [c]) = [] := by
    apply afterBlocks_of_open
    rw [List.count_append, List.count_append]
    omega
  cases d with
  | zero =>
    by_cases hopen : c = '{'
    · subst hopen
      cases he
      rw [hinside Nat.one_pos]
      rfl
    by_cases hclose : c = '}'
    · subst hclose
      cases he
    have hlonger := afterBlocks_append hopen hclose (by omega : segment.count '{' = _)
    rw [depth?_other hopen hclose] at he
    cases he
    rw [hlonger]
    by_cases hcolon : c = ':'
    · subst hcolon
      exact declarations_colon _ t ts
    · have hsemi : c ≠ ';' := fun h => hc ⟨h, rfl⟩
      rw [prepend_plain hopen hclose hcolon hsemi, declarations_extend,
        Pending.after_append hcolon]
  | succ d =>
    rw [afterBlocks_of_open (by omega : segment.count '}' < segment.count '{')]
    by_cases hclose : c = '}'
    · subst hclose
      cases he
      rw [afterBlocks_close]
      rfl
    by_cases hopen : c = '{'
    · subst hopen
      cases he
      rw [hinside (Nat.succ_pos _)]
      rfl
    rw [depth?_other hopen hclose] at he
    cases he
    rw [hinside (Nat.succ_pos _)]
    by_cases hcolon : c = ':'
    · subst hcolon
      rfl
    by_cases hsemi : c = ';'
    · subst hsemi
      rfl
    · rw [prepend_plain hopen hclose hcolon hsemi, declarations_extend_nested]

/-- The whole text: a semicolon outside blocks commits its segment, and what is pending at the end
is committed too. -/
theorem declarations_scan {d e : Nat} {s segment : List Char} (hs : depth? d s = some e)
    (hd : segment.count '{' = d + segment.count '}') (t : NameTable) :
    declarations d (.after (afterBlocks segment)) t (Token.scan s) =
      (((segments d segment s).map afterBlocks).filterMap pair?).foldl
        (fun t e => t.insert e.1 e.2) t := by
  induction s generalizing d segment t with
  | nil =>
    rw [Token.scan, segments, declarations, Pending.commit_after]
    cases h : pair? (afterBlocks segment) <;> simp [h]
  | cons c s ih =>
    by_cases hc : c = ';' ∧ d = 0
    · obtain ⟨rfl, rfl⟩ := hc
      have hrest := @ih 0 [] hs rfl ((Pending.after (afterBlocks segment)).commit t)
      rw [segments_semicolon, List.map_cons]
      refine hrest.trans ?_
      rw [Pending.commit_after]
      cases h : pair? (afterBlocks segment) <;> simp [h]
    · obtain ⟨k, hk, hs⟩ := depth?_cons_eq_some_iff.mp hs
      have heven := (depth?_eq_some_iff.mp hk).2
      have hcount : (segment ++ [c]).count '{' = k + (segment ++ [c]).count '}' := by
        rw [List.count_append, List.count_append]
        omega
      rw [scan_cons, declarations_prepend hd hc hk, segments_cons hc hk]
      exact ih hs hcount t

/-- Every brace has its block, and its declarations are found by splitting. -/
theorem blockTable_eq_splitTable (s : List Char) :
    (∃ body, BlockOf s body) ∧
      ∀ body, BlockOf s body → blockTable (block 0 (Token.scan s)).1 = splitTable body := by
  refine ⟨exists_blockOf s, fun body h => ?_⟩
  have hblock : (block 0 (Token.scan s)).1 = Token.scan body := by
    rcases h with ⟨hb, rest, rfl⟩ | ⟨hn, rfl⟩
    · rw [block_scan_append (balanced_iff.mp hb)]
    · obtain ⟨d, hd⟩ := nested_iff.mp hn
      rw [block_scan hd]
  have hdepth : ∃ e, depth? 0 body = some e := by
    rcases h with ⟨hb, -⟩ | ⟨hn, -⟩
    · exact ⟨0, balanced_iff.mp hb⟩
    · exact nested_iff.mp hn
  obtain ⟨e, he⟩ := hdepth
  rw [hblock]
  exact @declarations_scan 0 e body [] he rfl .empty

/-- A colon in a value, a nested block that is dropped with what stands before it, and a name that
is declared twice. -/
theorem blockTable_eq_splitTable_nested :
    BlockOf "a:b:c; x:{ p:q; r }y:1; z; a : 2 \x7d u".toList
        "a:b:c; x:{ p:q; r }y:1; z; a : 2 ".toList ∧
      (blockTable (block 0 (Token.scan "a:b:c; x:{ p:q; r }y:1; z; a : 2 \x7d u".toList)).1).entries =
        [("a", "2"), ("y", "1")] := by
  have hblock : BlockOf "a:b:c; x:{ p:q; r }y:1; z; a : 2 \x7d u".toList
      "a:b:c; x:{ p:q; r }y:1; z; a : 2 ".toList :=
    .inl ⟨by decide, " u".toList, rfl⟩
  refine ⟨hblock, ?_⟩
  rw [(blockTable_eq_splitTable _).2 _ hblock]
  decide +kernel

end Rule
end ScreenMarkup
