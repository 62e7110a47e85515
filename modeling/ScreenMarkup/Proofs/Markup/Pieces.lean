import ScreenMarkup.Proofs.Markup.Assembling
import ScreenMarkup.Proofs.Markup.Locality

/-!
# Pieces of the source

Each lexeme is read from a piece of the source, and the pieces in order are
the source. What stands between the two tags of a button is a run of pieces of
the document, and by itself it is read into the same pieces.
-/

set_option autoImplicit false

namespace ScreenMarkup.Markup

open Text (take_before)

/-- A lexeme with the source that it is read from. -/
structure Piece where
  lexeme : Lexeme
  source : List Char
deriving DecidableEq

namespace Piece

/-- Whether the piece is markup: a tag, or what is skipped from `<!` or `<?` on. Blanks and a `<`
without a name are not. -/
def isMarkup (p : Piece) : Bool :=
  match p.lexeme with
  | .opening .. | .whole .. | .closing => true
  | .text _ => false
  | .skipped => p.source.take 2 = "<!".toList || p.source.take 2 = "<?".toList

end Piece

def pieces : List Char → List Piece
  | [] => []
  | c :: s =>
    ⟨(next c s).1, (c :: s).take ((c :: s).length - (next c s).2.length)⟩ :: pieces (next c s).2
termination_by s => s.length
decreasing_by exact Nat.lt_succ_of_le (next_length_le c s)

def join (ps : List Piece) : List Char := ps.flatMap Piece.source

/-! ## The pieces of a text -/

theorem pieces_nil : pieces [] = [] := by rw [pieces]

theorem join_cons (p : Piece) (ps : List Piece) : join (p :: ps) = p.source ++ join ps := rfl

theorem join_append (ps qs : List Piece) : join (ps ++ qs) = join ps ++ join qs :=
  List.flatMap_append

/-- A lexeme consumes its first character, and more of the text that follows. -/
theorem next_split (c : Char) (s : List Char) :
    ∃ lexeme x r, s = x ++ r ∧ next c (x ++ r) = (lexeme, r) := by
  obtain ⟨x, hx⟩ := next_suffix c s
  exact ⟨(next c s).1, x, (next c s).2, hx.symm, by rw [hx]⟩

theorem pieces_cons {c : Char} {x r : List Char} {lexeme : Lexeme}
    (h : next c (x ++ r) = (lexeme, r)) :
    pieces (c :: (x ++ r)) = ⟨lexeme, c :: x⟩ :: pieces r := by
  rw [pieces, h, ← List.cons_append, take_before]

/-- Nothing of the source is left out. -/
theorem join_pieces (s : List Char) : join (pieces s) = s := by
  fun_induction pieces s with
  | case1 => rfl
  | case2 c s ih =>
    obtain ⟨lexeme, x, r, rfl, h⟩ := next_split c s
    rw [h] at ih
    rw [← pieces, pieces_cons h, join_cons, ih]
    rfl

/-- They are the pieces that documents are assembled from. -/
theorem pieces_lexeme (s : List Char) : (pieces s).map Piece.lexeme = (scan s).map Prod.fst := by
  fun_induction pieces s with
  | case1 => simp [scan]
  | case2 c s ih => rw [scan, List.map_cons, List.map_cons, ih]

theorem source_ne_nil {s : List Char} : ∀ p ∈ pieces s, p.source ≠ [] := by
  fun_induction pieces s with
  | case1 => simp
  | case2 c s ih =>
    obtain ⟨lexeme, x, r, rfl, h⟩ := next_split c s
    rw [← pieces, pieces_cons h]
    rw [h] at ih
    exact List.forall_mem_cons.mpr ⟨List.cons_ne_nil c x, ih⟩

/-- Markup begins with its `<`. -/
theorem next_isMarkup {c : Char} {x r : List Char} {lexeme : Lexeme}
    (h : next c (x ++ r) = (lexeme, r)) (hm : (Piece.mk lexeme (c :: x)).isMarkup = true) :
    c = '<' := by
  by_contra hc
  rw [next, if_neg hc] at h
  split at h
  · obtain ⟨rfl, -⟩ := Prod.mk.inj h
    simp [Piece.isMarkup, hc] at hm
  · obtain ⟨rfl, -⟩ := Prod.mk.inj h
    cases hm

theorem source_head {s : List Char} : ∀ p ∈ pieces s, p.isMarkup = true →
    p.source.head? = some '<' := by
  fun_induction pieces s with
  | case1 => simp
  | case2 c s ih =>
    obtain ⟨lexeme, x, r, rfl, h⟩ := next_split c s
    rw [← pieces, pieces_cons h]
    rw [h] at ih
    exact List.forall_mem_cons.mpr ⟨fun hm => congrArg some (next_isMarkup h hm), ih⟩

/-! ## Parts of a text -/

/-- The pieces before a `<` are the pieces of what stands before it. -/
theorem pieces_before {v : List Char} {ps : List Piece}
    (h : pieces (join ps ++ '<' :: v) = ps ++ pieces ('<' :: v)) : pieces (join ps) = ps := by
  induction ps with
  | nil => exact pieces_nil
  | cons p ps ih =>
    have hsource : p.source ≠ [] := source_ne_nil p (by rw [h]; exact List.mem_cons_self)
    obtain ⟨c, x, hx⟩ := List.exists_cons_of_ne_nil hsource
    rw [join_cons, hx, List.cons_append] at h ⊢
    rw [List.cons_append] at h
    obtain ⟨lexeme, y, r, hsplit, hnext⟩ := next_split c (x ++ join ps ++ '<' :: v)
    rw [hsplit, pieces_cons hnext, List.cons_append, List.cons.injEq] at h
    obtain ⟨rfl, hrest⟩ := h
    obtain rfl : y = x := (List.cons.inj hx).2
    rw [List.append_assoc] at hsplit
    obtain rfl := List.append_cancel_left hsplit
    have hwithin : next c (y ++ join ps) = (lexeme, join ps) := by
      apply next_within (v := v)
      rw [List.append_assoc]
      exact hnext
    rw [pieces_cons hwithin, ih hrest]

/-! ## What a button keeps -/

/-- The source between the tags is a run of pieces of the text, and its own pieces are that run. It
is not empty when there are elements below. -/
structure KeepsPieces (text : List Char) (e : Element) : Prop where
  run : pieces e.inner.toList <:+: pieces text
  inner : e.children ≠ [] → e.inner ≠ ""

/-- The content read so far is a run of pieces of the text. -/
structure Unclosed.ReadsPieces (text : List Char) (u : Unclosed) (here : List Char) : Prop where
  body : pieces u.body <:+ pieces text
  reached : ∃ ps, pieces u.body = ps ++ pieces here
  children : u.children ≠ [] → here.length < u.body.length

theorem pieces_suffix {s rest : List Char} {lexeme : Lexeme} (h : (lexeme, rest) ∈ scan s) :
    pieces rest <:+ pieces s := by
  fun_induction scan s with
  | case1 => cases h
  | case2 c s ih =>
    have hlater : pieces (next c s).2 <:+ pieces (c :: s) := by
      rw [pieces.eq_2]
      exact List.suffix_cons _ _
    rcases List.mem_cons.mp h with h | h
    · rw [← h] at hlater
      exact hlater
    · exact (ih h).trans hlater

theorem keepsPieces_of_close {text here : List Char} {u : Unclosed} (hu : u.ReadsPieces text here)
    (hstop : ∀ c, here.head? = some c → c = '<') (hb : u.tag = "button") :
    KeepsPieces text (u.close here) := by
  obtain ⟨ps, hps⟩ := hu.reached
  have hbody : u.body = join ps ++ here := by
    rw [← join_pieces u.body, hps, join_append, join_pieces]
  have hinner : (u.close here).inner = String.ofList (join ps) := by
    rw [Unclosed.close, hbody, take_before, if_pos (by rw [hb]; rfl)]
  have hpieces : pieces (join ps) = ps := by
    rw [hbody] at hps
    cases here with
    | nil => rwa [List.append_nil, pieces_nil, List.append_nil] at hps
    | cons c s =>
      obtain rfl := hstop c rfl
      exact pieces_before hps
  constructor
  · rw [hinner, String.toList_ofList, hpieces]
    apply List.IsInfix.trans _ hu.body.isInfix
    rw [hps]
    exact (List.prefix_append _ _).isInfix
  · intro hchildren hempty
    have hlt := hu.children fun h => hchildren (by rw [Unclosed.close, h]; rfl)
    rw [hinner, String.ofList_eq_empty_iff] at hempty
    rw [hbody, hempty] at hlt
    exact Nat.lt_irrefl _ hlt

theorem keeps_pieces (text : List Char) :
    Keeps text (fun e => e.tag = "button" → KeepsPieces text e) (Unclosed.ReadsPieces text) where
  opening h := ⟨pieces_suffix h, ⟨[], rfl⟩, fun h => absurd rfl h⟩
  whole _ _ := by
    refine ⟨?_, fun h => absurd rfl h⟩
    show pieces [] <:+: pieces text
    rw [pieces_nil]
    exact List.nil_infix
  text _ _ hu := ⟨hu.body, hu.reached, hu.children⟩
  pass {_ c s} hu := by
    obtain ⟨ps, hps⟩ := hu.reached
    have hlength := next_length_le c s
    refine ⟨hu.body, ⟨ps ++ (pieces (c :: s)).take 1, ?_⟩, fun h => ?_⟩
    · rw [hps, pieces.eq_2, List.take_succ_cons, List.take_zero, List.append_assoc,
        List.singleton_append]
    · have hlt := hu.children h
      rw [List.length_cons] at hlt
      omega
  child hbody hu _ := ⟨hu.body, hu.reached, fun _ => hbody⟩
  close hstop hu hb := keepsPieces_of_close hu hstop hb

/-- Every button of a document keeps a run of its pieces. -/
theorem parse_keepsPieces (text : String) : ∀ e ∈ (parse text).descendants, e.tag = "button" →
    KeepsPieces text.toList e :=
  (keeps_pieces text.toList).descendants

end ScreenMarkup.Markup
