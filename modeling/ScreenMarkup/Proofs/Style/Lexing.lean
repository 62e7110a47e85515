import ScreenMarkup.Proofs.Markup.Cursor
import ScreenMarkup.Proofs.Style.Composition

/-!
# Lexing stylesheets

Each kind of token has a pattern. A lexer that takes the longest match again
and again leaves nothing out, since some pattern matches wherever a character
is left: the tokens tile the text, and no two chunks stand side by side.

Comments are cleared before. The blank that each leaves behind keeps the texts
around it apart, so clearing makes no new comment.
-/

set_option autoImplicit false

namespace ScreenMarkup.Style

open Markup Text

/-! ## Patterns -/

/-- No punctuation. -/
def Plain (c : Char) : Prop := c ∉ ['{', '}', ':', ';']

instance : DecidablePred Plain := fun c => inferInstanceAs (Decidable (c ∉ ['{', '}', ':', ';']))

namespace Token

inductive Kind where
  | braceOpen | braceClose | colon | semicolon | chunk
deriving DecidableEq

def kind : Token → Kind
  | braceOpen => .braceOpen
  | braceClose => .braceClose
  | colon => .colon
  | semicolon => .semicolon
  | chunk _ => .chunk

/-- The pattern of each kind: punctuation is its character, a chunk is any run of others. -/
def Kind.Fits (word : List Char) : Kind → Prop
  | braceOpen => word = ['{']
  | braceClose => word = ['}']
  | colon => word = [':']
  | semicolon => word = [';']
  | chunk => word ≠ [] ∧ ∀ c ∈ word, Plain c

variable {c : Char} {s w : List Char} {t : Token} {k : Kind} {ts : List Token}

theorem punctuation?_eq_none_iff : punctuation? c = none ↔ Plain c := by
  unfold punctuation? Plain
  split_ifs <;> simp_all

theorem plain_or_punctuation (c : Char) : Plain c ∨ ∃ t, punctuation? c = some t := by
  cases h : punctuation? c with
  | none => exact .inl (punctuation?_eq_none_iff.mp h)
  | some t => exact .inr ⟨t, rfl⟩

theorem kind_ne_chunk (hc : punctuation? c = some t) : t.kind ≠ .chunk := by
  unfold punctuation? at hc
  split_ifs at hc <;> cases hc <;> decide

theorem Kind.Fits.ne_nil (h : k.Fits w) : w ≠ [] := by
  rintro rfl
  cases k with
  | chunk => exact h.1 rfl
  | _ => cases h

/-- Where a text begins with punctuation, only the pattern of that character matches. -/
theorem Kind.Fits.of_punctuation (hk : k.Fits (c :: w)) (hc : punctuation? c = some t) :
    k = t.kind ∧ w = [] := by
  cases k with
  | chunk =>
    rw [punctuation?_eq_none_iff.mpr (hk.2 c List.mem_cons_self)] at hc
    cases hc
  | _ =>
    cases hk
    cases hc
    exact ⟨rfl, rfl⟩

theorem Kind.Fits.of_plain (hk : k.Fits (c :: w)) (hc : Plain c) :
    k = .chunk ∧ ∀ d ∈ w, Plain d := by
  cases k with
  | chunk => exact ⟨rfl, fun d hd => hk.2 d (List.mem_cons_of_mem c hd)⟩
  | _ =>
    cases hk
    exact absurd hc (by decide)

theorem fits_run (hc : Plain c) (s : List Char) :
    Kind.chunk.Fits (c :: s.takeWhile Plain) := by
  refine ⟨List.cons_ne_nil _ _, List.forall_mem_cons.mpr ⟨hc, fun d hd => ?_⟩⟩
  simpa using List.mem_takeWhile_imp hd

theorem fits_punctuation (hc : punctuation? c = some t) : t.kind.Fits [c] := by
  unfold punctuation? at hc
  split_ifs at hc <;> cases hc <;> subst c <;> rfl

end Token

/-! ## The lexer -/

/-- In front of `c :: s` a lexer tells which pattern it matched, if any did, and how many
characters of `s` it takes after `c`. -/
abbrev Lexer := Char → List Char → Option Token.Kind × Nat

namespace Lexer

/-- It takes the longest text that fits one of the patterns, and fails only where none does. -/
structure TakesLongest (lexer : Lexer) : Prop where
  fits {c : Char} {s : List Char} {k : Token.Kind} :
    (lexer c s).1 = some k → k.Fits (c :: s.take (lexer c s).2)
  longest {c : Char} {s : List Char} {k l : Token.Kind} {w : List Char} :
    (lexer c s).1 = some k → l.Fits w → w <+: c :: s →
      w.length ≤ (c :: s.take (lexer c s).2).length
  fails {c : Char} {s : List Char} {l : Token.Kind} {w : List Char} :
    (lexer c s).1 = none → l.Fits w → ¬w <+: c :: s

/-- All that the lexer gives for a text that begins at the offset `here`, failures included. -/
def items (lexer : Lexer) (here : Nat) : List Char → List (Option Token.Kind × Nat × Nat)
  | [] => []
  | c :: s =>
    let stop := here + byteSize (c :: s.take (lexer c s).2)
    ((lexer c s).1, here, stop) :: items lexer stop (s.drop (lexer c s).2)
termination_by s => s.length

/-- The kinds and spans of the tokens; failures are skipped. -/
def tokenize (lexer : Lexer) (css : String) : List (Token.Kind × Nat × Nat) :=
  (lexer.items 0 css.toList).filterMap fun item => item.1.map (·, item.2)

variable {lexer : Lexer} {c : Char} {s : List Char} {t : Token}

namespace TakesLongest

theorem item_punctuation (h : lexer.TakesLongest) (hc : Token.punctuation? c = some t)
    (s : List Char) : (lexer c s).1 = some t.kind ∧ s.take (lexer c s).2 = [] ∧
      s.drop (lexer c s).2 = s := by
  have hsplit := List.take_append_drop (lexer c s).2 s
  cases hk : (lexer c s).1 with
  | none => exact absurd (by simp) (h.fails hk (Token.fits_punctuation hc))
  | some k =>
    obtain ⟨rfl, hword⟩ := (h.fits hk).of_punctuation hc
    rw [hword] at hsplit
    exact ⟨rfl, hword, hsplit⟩

theorem item_plain (h : lexer.TakesLongest) (hc : Plain c) (s : List Char) :
    (lexer c s).1 = some .chunk ∧ s.take (lexer c s).2 = s.takeWhile Plain ∧
      s.drop (lexer c s).2 = s.dropWhile Plain := by
  have hsplit := List.take_append_drop (lexer c s).2 s
  have hrun := Token.fits_run hc s
  have hprefix : c :: s.takeWhile Plain <+: c :: s :=
    List.cons_prefix_cons.mpr ⟨rfl, List.takeWhile_prefix _⟩
  cases hk : (lexer c s).1 with
  | none => exact absurd hprefix (h.fails hk hrun)
  | some k =>
    obtain ⟨rfl, hplain⟩ := (h.fits hk).of_plain hc
    -- the run fits as well, so no shorter text is taken
    have hlong := h.longest hk hrun hprefix
    have hword : s.take (lexer c s).2 = s.takeWhile Plain :=
      (prefix_takeWhile (List.take_prefix _ s) (by simpa using hplain)).eq_of_length_le
        (by simpa using hlong)
    rw [hword] at hsplit
    exact ⟨rfl, hword, List.append_cancel_left (hsplit.trans List.takeWhile_append_dropWhile.symm)⟩

end TakesLongest

/-- A punctuation character, or else the whole run. -/
def greedy : Lexer := fun c s =>
  match Token.punctuation? c with
  | some t => (some t.kind, 0)
  | none => (some .chunk, (s.takeWhile Plain).length)

theorem greedy_punctuation (hc : Token.punctuation? c = some t) (s : List Char) :
    greedy c s = (some t.kind, 0) := by rw [greedy, hc]

theorem greedy_plain (hc : Plain c) (s : List Char) :
    greedy c s = (some .chunk, (s.takeWhile Plain).length) := by
  rw [greedy, Token.punctuation?_eq_none_iff.mpr hc]

theorem takesLongest_greedy : greedy.TakesLongest := by
  constructor
  case fits =>
    intro c s k hk
    rcases Token.plain_or_punctuation c with hc | ⟨t, ht⟩
    · rw [greedy_plain hc] at hk ⊢
      cases hk
      rw [← List.prefix_iff_eq_take.mp (List.takeWhile_prefix _)]
      exact Token.fits_run hc s
    · rw [greedy_punctuation ht] at hk ⊢
      cases hk
      exact Token.fits_punctuation ht
  case longest =>
    intro c s k l w hk hl hw
    obtain ⟨d, w, rfl⟩ := List.exists_cons_of_ne_nil hl.ne_nil
    obtain ⟨rfl, hrun⟩ := List.cons_prefix_cons.mp hw
    rcases Token.plain_or_punctuation d with hd | ⟨t, ht⟩
    · rw [greedy_plain hd, ← List.prefix_iff_eq_take.mp (List.takeWhile_prefix _)]
      have hplain := (hl.of_plain hd).2
      have hlong := (prefix_takeWhile hrun (p := Plain) (by simpa using hplain)).length_le
      simpa using hlong
    · rw [(hl.of_punctuation ht).2]
      simp
  case fails =>
    intro c s l w hk
    rcases Token.plain_or_punctuation c with hc | ⟨t, ht⟩
    · rw [greedy_plain hc] at hk
      cases hk
    · rw [greedy_punctuation ht] at hk
      cases hk

end Lexer

/-! ## Runs -/

namespace Token

variable {c : Char} {s : List Char} {t : Token} {ts : List Token}

/-- A run of plain characters becomes one chunk, however it is followed. -/
theorem scan_run (hc : Plain c) (s : List Char) :
    scan (c :: s) = chunk (c :: s.takeWhile Plain) :: scan (s.dropWhile Plain) := by
  induction s generalizing c with
  | nil => simp [scan, punctuation?_eq_none_iff.mpr hc, extend]
  | cons d s ih =>
    rw [scan, punctuation?_eq_none_iff.mpr hc]
    rcases plain_or_punctuation d with hd | ⟨t, ht⟩
    · rw [ih hd, List.takeWhile_cons_of_pos (by simpa using hd),
        List.dropWhile_cons_of_pos (by simpa using hd)]
      rfl
    · have hd : ¬Plain d := fun h => by
        rw [punctuation?_eq_none_iff.mpr h] at ht
        cases ht
      rw [List.takeWhile_cons_of_neg (by simpa using hd),
        List.dropWhile_cons_of_neg (by simpa using hd), scan, ht]
      have hkind := kind_ne_chunk ht
      cases t with
      | chunk s => exact absurd rfl hkind
      | _ => rfl

/-- Every token fits the pattern of its kind, and no chunk follows a chunk. -/
structure Parted (ts : List Token) : Prop where
  fits : ∀ t ∈ ts, t.kind.Fits t.text
  apart : ts.IsChain fun t u => ¬(t.kind = .chunk ∧ u.kind = .chunk)

theorem Parted.nil : Parted [] := ⟨fun _ h => absurd h List.not_mem_nil, List.IsChain.nil⟩

theorem Parted.cons_punctuation (h : Parted ts) (hc : punctuation? c = some t) :
    Parted (t :: ts) where
  fits := by
    intro u hu
    rcases List.mem_cons.mp hu with rfl | hu
    · rw [punctuation?_text hc]
      exact fits_punctuation hc
    · exact h.fits u hu
  apart := List.isChain_cons.mpr ⟨fun _ _ hboth => kind_ne_chunk hc hboth.1, h.apart⟩

theorem Parted.extend (h : Parted ts) (hc : Plain c) : Parted (extend c ts) := by
  have hsingle : (chunk [c]).kind.Fits (chunk [c]).text := by
    refine ⟨List.cons_ne_nil c [], fun d hd => ?_⟩
    rw [List.mem_singleton.mp hd]
    exact hc
  cases ts with
  | nil => exact ⟨fun u hu => List.mem_singleton.mp hu ▸ hsingle, List.isChain_singleton _⟩
  | cons u ts =>
    have hrest := List.isChain_cons.mp h.apart
    cases u with
    | chunk w =>
      -- the chunk grows, and its kind stays
      refine ⟨fun v hv => ?_, List.isChain_cons.mpr ⟨hrest.1, hrest.2⟩⟩
      rcases List.mem_cons.mp hv with rfl | hv
      · have hw := (h.fits (chunk w) List.mem_cons_self).2
        exact ⟨List.cons_ne_nil c w, List.forall_mem_cons.mpr ⟨hc, hw⟩⟩
      · exact h.fits v (List.mem_cons_of_mem _ hv)
    | _ =>
      refine ⟨List.forall_mem_cons.mpr ⟨hsingle, h.fits⟩, List.isChain_cons.mpr ⟨?_, h.apart⟩⟩
      rintro v hv ⟨-, hchunk⟩
      cases hv
      cases hchunk

theorem parted_scan (s : List Char) : Parted (scan s) := by
  induction s with
  | nil => exact .nil
  | cons c s ih =>
    rw [scan]
    cases hc : punctuation? c with
    | some t => exact ih.cons_punctuation hc
    | none => exact ih.extend (punctuation?_eq_none_iff.mp hc)

end Token

/-- The tokens are what the lexer finds, and it never fails. -/
theorem Lexer.TakesLongest.items_eq {lexer : Lexer} (h : lexer.TakesLongest) (here : Nat)
    (s : List Char) : lexer.items here s =
      (Token.spans here (Token.scan s)).map fun x => (some x.1.kind, x.2) := by
  fun_induction lexer.items here s with
  | case1 here => rfl
  | case2 here c s stop ih =>
    rcases Token.plain_or_punctuation c with hc | ⟨t, ht⟩
    · obtain ⟨hkind, htake, hdrop⟩ := h.item_plain hc s
      rw [ih, hkind, hdrop, Token.scan_run hc]
      simp only [stop, htake]
      rfl
    · obtain ⟨hkind, htake, hdrop⟩ := h.item_punctuation ht s
      rw [ih, hkind, hdrop, Token.scan, ht]
      simp only [stop, htake, Token.spans, Token.punctuation?_text ht]
      rfl

theorem Lexer.TakesLongest.tokenize_eq {lexer : Lexer} (h : lexer.TakesLongest) (css : String) :
    lexer.tokenize css = (tokens css).map fun x => (x.1.kind, x.2) := by
  rw [Lexer.tokenize, h.items_eq, List.filterMap_map, ← List.filterMap_eq_map]
  rfl

/-! ## Tiling -/

/-- The spans cut a text: they begin at 0, each where the one before ends, and end at its length. A
span of punctuation holds its character, one of a chunk holds no punctuation, and no chunk follows
a chunk. -/
structure Tiling (css : String) (spans : List (Token.Kind × Nat × Nat)) : Prop where
  nonempty {k : Token.Kind} {first last : Nat} : (k, first, last) ∈ spans → first < last
  start {k : Token.Kind} {first last : Nat} : spans.head? = some (k, first, last) → first = 0
  stop {k : Token.Kind} {first last : Nat} :
    spans.getLast? = some (k, first, last) → last = css.utf8ByteSize
  complete : spans = [] → css = ""
  adjoining : spans.IsChain fun x y => x.2.2 = y.2.1
  words {k : Token.Kind} {first last : Nat} : (k, first, last) ∈ spans →
    ∃ word, (Cursor.start css).slice? first last = some word ∧ k.Fits word
  apart : spans.IsChain fun x y => ¬(x.1 = .chunk ∧ y.1 = .chunk)

namespace Token

variable {here first last : Nat} {t : Token} {ts : List Token}

theorem map_fst_spans (here : Nat) (ts : List Token) : (spans here ts).map Prod.fst = ts := by
  induction ts generalizing here with
  | nil => rfl
  | cons t ts ih => rw [spans, List.map_cons, ih]

theorem spans_start (h : (spans here ts).head? = some (t, first, last)) : first = here := by
  cases ts with
  | nil => cases h
  | cons u ts =>
    cases h
    rfl

theorem spans_stop (h : (spans here ts).getLast? = some (t, first, last)) :
    last = here + byteSize (join ts) := by
  induction ts generalizing here with
  | nil => cases h
  | cons u ts ih =>
    have hjoin : join (u :: ts) = u.text ++ join ts := rfl
    rw [hjoin, byteSize_append, ← Nat.add_assoc]
    cases ts with
    | nil =>
      cases h
      rfl
    | cons v ts => exact ih h

theorem isChain_spans (here : Nat) (ts : List Token) :
    (spans here ts).IsChain fun x y => x.2.2 = y.2.1 := by
  induction ts generalizing here with
  | nil => exact List.IsChain.nil
  | cons t ts ih => exact List.isChain_cons.mpr ⟨fun _ hnext => (spans_start hnext).symm, ih _⟩

/-- A span is where the text of its token stands among the texts of all. -/
theorem exists_of_mem_spans (h : (t, first, last) ∈ spans here ts) : ∃ before after,
    join ts = before ++ t.text ++ after ∧ first = here + byteSize before ∧
      last = first + byteSize t.text := by
  induction ts generalizing here with
  | nil => cases h
  | cons u ts ih =>
    rcases List.mem_cons.mp h with he | h
    · cases he
      exact ⟨[], join ts, rfl, rfl, rfl⟩
    · obtain ⟨before, after, hjoin, hfirst, hlast⟩ := ih h
      refine ⟨u.text ++ before, after, ?_, ?_, hlast⟩
      · rw [List.append_assoc, List.append_assoc, ← List.append_assoc before, ← hjoin]
        rfl
      · rw [hfirst, byteSize_append, Nat.add_assoc]

end Token

/-- The span of a token cuts its text out of the stylesheet. -/
theorem slice?_of_mem_tokens {css : String} {t : Token} {first last : Nat}
    (h : (t, first, last) ∈ tokens css) :
    (Cursor.start css).slice? first last = some t.text := by
  obtain ⟨before, after, hjoin, rfl, rfl⟩ := Token.exists_of_mem_spans h
  rw [Token.join_scan, List.append_assoc] at hjoin
  rw [Cursor.slice?, if_pos (Nat.le_add_right _ _), Nat.add_sub_cancel_left, Nat.zero_add,
    Cursor.start, hjoin, dropBytes?_append]
  exact takeBytes?_append t.text after

theorem map_fst_tokens (css : String) : (tokens css).map Prod.fst = Token.scan css.toList :=
  Token.map_fst_spans 0 _

theorem fits_of_mem_tokens {css : String} {t : Token} {span : Nat × Nat}
    (h : (t, span) ∈ tokens css) : t.kind.Fits t.text := by
  apply (Token.parted_scan css.toList).fits
  rw [← map_fst_tokens]
  exact List.mem_map_of_mem h

theorem tiling_tokens (css : String) :
    Tiling css ((tokens css).map fun x => (x.1.kind, x.2)) := by
  constructor
  case nonempty =>
    intro k first last h
    obtain ⟨⟨t, first, last⟩, ht, he⟩ := List.mem_map.mp h
    cases he
    obtain ⟨-, -, -, -, rfl⟩ := Token.exists_of_mem_spans ht
    have hsize : byteSize t.text ≠ 0 := fun h =>
      (fits_of_mem_tokens ht).ne_nil (byteSize_eq_zero.mp h)
    omega
  case start =>
    intro k first last h
    rw [List.head?_map] at h
    obtain ⟨⟨t, first, last⟩, ht, he⟩ := Option.map_eq_some_iff.mp h
    cases he
    exact Token.spans_start ht
  case stop =>
    intro k first last h
    rw [List.getLast?_map] at h
    obtain ⟨⟨t, first, last⟩, ht, he⟩ := Option.map_eq_some_iff.mp h
    cases he
    rw [Token.spans_stop ht, Token.join_scan, Nat.zero_add, byteSize_toList]
  case complete =>
    intro h
    have hscan := map_fst_tokens css
    rw [List.map_eq_nil_iff.mp h] at hscan
    rw [← String.toList_eq_nil_iff, ← Token.join_scan css.toList, ← hscan]
    rfl
  case adjoining => exact (List.isChain_map _).mpr (Token.isChain_spans _ _)
  case words =>
    intro k first last h
    obtain ⟨⟨t, first, last⟩, ht, he⟩ := List.mem_map.mp h
    cases he
    exact ⟨t.text, slice?_of_mem_tokens ht, fits_of_mem_tokens ht⟩
  case apart =>
    have h := (Token.parted_scan css.toList).apart
    rw [← map_fst_tokens, List.isChain_map] at h
    exact (List.isChain_map _).mpr h

/-! ## Comments -/

/-- The first comment gives way to a blank, and so do those after it. One that is not closed runs
to the end. -/
inductive Cleared : List Char → List Char → Prop
  | plain {s : List Char} : cut? ['/', '*'] s = none → Cleared s s
  | comment {s before inner body rest cleared : List Char} :
      cut? ['/', '*'] s = some (before, inner) → cut? ['*', '/'] inner = some (body, rest) →
      Cleared rest cleared → Cleared s (before ++ ' ' :: cleared)
  | unclosed {s before inner : List Char} :
      cut? ['/', '*'] s = some (before, inner) → cut? ['*', '/'] inner = none →
      Cleared s (before ++ [' '])

theorem uncommented_of_cut? {s : List Char} (h : cut? ['/', '*'] s = none) : Uncommented s :=
  uncommented_of_contains (Option.isSome_eq_false_iff.mpr (by rw [h]; rfl))

/-- What stands before the first comment stays. -/
theorem dropComments_of_cut? {s before inner : List Char}
    (h : cut? ['/', '*'] s = some (before, inner)) :
    dropComments s = before ++ ' ' :: afterComment inner := by
  induction s generalizing before with
  | nil => cases h
  | cons c s ih =>
    unfold cut? at h
    split at h
    · next rest hrest =>
      cases h
      rw [after?_eq_some hrest]
      rfl
    · next hnone =>
      obtain ⟨⟨before, inner⟩, hp, he⟩ := Option.map_eq_some_iff.mp h
      cases he
      have hc : c = '/' → s.head? ≠ some '*' := by
        rintro rfl hs
        obtain ⟨r, rfl⟩ := List.head?_eq_some_iff.mp hs
        cases hnone
      rw [dropComments_cons hc, ih hp]
      rfl

theorem afterComment_of_cut? {s body rest : List Char}
    (h : cut? ['*', '/'] s = some (body, rest)) : afterComment s = dropComments rest := by
  have hbody := contains_cut?_fst (List.cons_ne_nil _ _) h
  rw [cut?_eq_some h, List.append_assoc]
  exact afterComment_append hbody rest

theorem afterComment_unclosed {s : List Char} (h : cut? ['*', '/'] s = none) :
    afterComment s = [] := by
  induction s with
  | nil => rfl
  | cons c s ih =>
    unfold cut? at h
    split at h
    · cases h
    · next hnone =>
      rw [afterComment, ih (Option.map_eq_none_iff.mp h)]
      rintro r rfl rfl
      cases hnone

theorem cleared_dropComments (s : List Char) : Cleared s (dropComments s) := by
  -- what follows a comment is shorter than what the comment stands in
  induction hn : s.length using Nat.strong_induction_on generalizing s with
  | _ n ih =>
    cases hopen : cut? ['/', '*'] s with
    | none =>
      rw [(uncommented_of_cut? hopen).dropComments]
      exact .plain hopen
    | some parts =>
      obtain ⟨before, inner⟩ := parts
      have hinner := cut?_rest_length hopen
      rw [dropComments_of_cut? hopen]
      cases hclose : cut? ['*', '/'] inner with
      | none =>
        rw [afterComment_unclosed hclose]
        exact .unclosed hopen hclose
      | some parts =>
        obtain ⟨body, rest⟩ := parts
        have hrest := cut?_rest_length hclose
        rw [afterComment_of_cut? hclose]
        refine .comment hopen hclose (ih rest.length ?_ rest rfl)
        simp at hinner hrest
        omega

/-- The blank keeps what stands before a comment apart from what stands after it. -/
theorem Cleared.uncommented {s cleared : List Char} (h : Cleared s cleared) :
    Uncommented cleared := by
  have hbefore {s before inner : List Char} (h : cut? ['/', '*'] s = some (before, inner)) :
      Uncommented before :=
    uncommented_of_contains (contains_cut?_fst (List.cons_ne_nil _ _) h)
  induction h with
  | plain hnone => exact uncommented_of_cut? hnone
  | comment hopen _ _ ih => exact (hbefore hopen).bridge (by decide) (by decide) ih
  | unclosed hopen _ => exact (hbefore hopen).bridge (by decide) (by decide) .nil

theorem Uncommented.no_comment {s : List Char} (h : Uncommented s) : ¬['/', '*'] <:+: s := by
  intro hin
  have hmark : Uncommented ['/', '*'] := List.IsChain.infix h hin
  exact (List.isChain_cons_cons.mp hmark).1 ⟨rfl, rfl⟩

/-- Lexing by the longest match gives the tokens, and they tile the stylesheet. Clearing leaves no
comment, so that nothing is left to clear. -/
theorem tokens_tile_comments_clear {lexer : Lexer} (h : lexer.TakesLongest) (css : String) :
    (lexer.tokenize css = (tokens css).map fun x => (x.1.kind, x.2)) ∧
      Tiling css (lexer.tokenize css) ∧
      Cleared css.toList (dropComments css.toList) ∧
      ¬"/*".toList <:+: dropComments css.toList ∧
      dropComments (dropComments css.toList) = dropComments css.toList := by
  have hcleared := cleared_dropComments css.toList
  refine ⟨h.tokenize_eq css, ?_, hcleared, hcleared.uncommented.no_comment,
    hcleared.uncommented.dropComments⟩
  rw [h.tokenize_eq]
  exact tiling_tokens css

/-- A comment between a slash and a star, a wide character, and a value that begins with a colon. -/
theorem tokens_tile_comments_clear_slash :
    Lexer.greedy.TakesLongest ∧
      Lexer.greedy.tokenize "é//*x*/*{b::c;}" =
        [(.chunk, 0, 9), (.braceOpen, 9, 10), (.chunk, 10, 11), (.colon, 11, 12),
          (.colon, 12, 13), (.chunk, 13, 14), (.semicolon, 14, 15), (.braceClose, 15, 16)] ∧
      Tiling "é//*x*/*{b::c;}" (Lexer.greedy.tokenize "é//*x*/*{b::c;}") ∧
      Cleared "é//*x*/*{b::c;}".toList "é/ *{b::c;}".toList ∧
      ¬"/*".toList <:+: "é/ *{b::c;}".toList ∧
      dropComments "é/ *{b::c;}".toList = "é/ *{b::c;}".toList := by
  obtain ⟨htokens, htiling, hcleared, hclear, hagain⟩ :=
    tokens_tile_comments_clear Lexer.takesLongest_greedy "é//*x*/*{b::c;}"
  have hdrop : dropComments "é//*x*/*{b::c;}".toList = "é/ *{b::c;}".toList := by decide
  rw [hdrop] at hcleared hclear hagain
  refine ⟨Lexer.takesLongest_greedy, ?_, htiling, hcleared, hclear, hagain⟩
  rw [htokens]
  decide

end ScreenMarkup.Style
