import ScreenMarkup.Proofs.Markup.LetterCase
import ScreenMarkup.Proofs.Markup.Reading

/-!
# Progress

Reading with a cursor ends. Every turn of a loop that goes on takes the cursor
further, and the cursor stays on the boundaries of its text, so no part of the
text is out of range. What is read has no more elements than the text has `<`.
-/

set_option autoImplicit false

namespace ScreenMarkup.Markup

open Text Cursor

variable {source s t : List Char}

/-! ## The number of elements -/

theorem length_listing_reverse (es : List Element) :
    (Element.listing es.reverse).length = (Element.listing es).length := by
  induction es with
  | nil => rfl
  | cons e es ih =>
    rw [List.reverse_cons, listing_append, List.length_append, ih]
    simp only [Element.listing, List.length_cons, List.length_append, List.length_nil]
    omega

/-- The elements of which the start tags have been read. -/
def opened : List Unclosed → Nat
  | [] => 0
  | u :: more => (Element.listing u.children).length + 1 + opened more

theorem opened_addChild (u : Unclosed) (e : Element) (more : List Unclosed) :
    opened (u.addChild e :: more) = e.descendants.length + 1 + opened (u :: more) := by
  rw [opened, opened, Unclosed.addChild, Element.listing, List.length_cons, List.length_append]
  omega

theorem descendants_close (u : Unclosed) (stop : List Char) :
    (u.close stop).descendants.length = (Element.listing u.children).length := by
  rw [Element.descendants_eq]
  exact length_listing_reverse u.children

theorem length_closeAll (more : List Unclosed) (u : Unclosed) :
    (u.closeAll more).descendants.length + 1 = opened (u :: more) := by
  induction more generalizing u with
  | nil => exact congrArg (· + 1) (descendants_close u [])
  | cons outer more ih =>
    rw [Unclosed.closeAll, ih, opened_addChild, descendants_close]
    rfl

/-- How many elements a lexeme opens. -/
def Lexeme.opens : Lexeme → Nat
  | .opening _ _ => 1
  | .whole _ _ _ => 1
  | .closing => 0
  | .text _ => 0
  | .skipped => 0

/-- Only a `<` opens an element. -/
theorem opens_next (c : Char) (s : List Char) :
    (next c s).1.opens + (next c s).2.count '<' ≤ (c :: s).count '<' := by
  have hcount : (next c s).2.count '<' ≤ s.count '<' := (next_suffix c s).sublist.count_le _
  by_cases hc : c = '<'
  · have hopens : (next c s).1.opens ≤ 1 := by
      cases (next c s).1 <;> simp [Lexeme.opens]
    subst hc
    rw [List.count_cons_self]
    omega
  · have hopens : (next c s).1.opens = 0 := by
      rw [next, if_neg hc]
      split <;> rfl
    rw [List.count_cons_of_ne hc, hopens]
    omega

/-- The elements that are open or complete after a lexeme. -/
def Progress.opened : Progress → Nat
  | .unclosed stack => Markup.opened stack
  | .complete e => e.descendants.length + 1
  | .ended => 0

theorem opened_advance (stack : List Unclosed) (here rest : List Char) (lexeme : Lexeme) :
    (advance stack here rest lexeme).opened ≤ opened stack + lexeme.opens := by
  cases lexeme with
  | opening tag attrs =>
    show opened (_ :: stack) ≤ opened stack + 1
    rw [opened, Element.listing, List.length_nil]
    omega
  | whole tag attrs text =>
    cases stack with
    | nil => exact Nat.le_refl _
    | cons u more =>
      show opened (u.addChild _ :: more) ≤ _
      rw [opened_addChild, Element.descendants_eq]
      exact Nat.le_of_eq (Nat.add_comm _ _)
  | closing =>
    rcases stack with - | ⟨u, - | ⟨outer, more⟩⟩
    · exact Nat.zero_le _
    · exact Nat.le_of_eq (congrArg (· + 1) (descendants_close u here))
    · show opened (outer.addChild (u.close here) :: more) ≤ _
      rw [opened_addChild, descendants_close]
      exact Nat.le_refl _
  | text t => cases stack <;> exact Nat.le_refl _
  | skipped => exact Nat.le_refl _

/-- Every element from some place on has a `<` of its own there or has been opened before. -/
theorem length_resume (stack : List Unclosed) (s : List Char) :
    (Element.listing (resume stack s)).length ≤ opened stack + s.count '<' := by
  unfold resume
  fun_induction scan s generalizing stack with
  | case1 =>
    cases stack with
    | nil => exact Nat.zero_le _
    | cons u more =>
      simp only [assemble, Element.listing, List.append_nil, List.length_cons, length_closeAll]
      exact Nat.le_refl _
  | case2 c s ih =>
    have hstep := opened_advance stack (c :: s) (next c s).2 (next c s).1
    have hmark := opens_next c s
    rw [assemble_cons]
    cases hp : advance stack (c :: s) (next c s).2 (next c s).1 with
    | unclosed stack' =>
      rw [hp, Progress.opened] at hstep
      have hrest := ih stack'
      dsimp only
      omega
    | complete e =>
      rw [hp, Progress.opened] at hstep
      have hrest : _ ≤ 0 + _ := ih []
      simp only [Element.listing, List.length_cons, List.length_append]
      omega
    | ended => exact Nat.zero_le _

/-- A document has no more elements than its text has `<`. -/
theorem length_descendants_parse (text : String) :
    (parse text).descendants.length ≤ text.toList.count '<' := by
  have h := length_resume [] text.toList
  rw [opened, Nat.zero_add] at h
  rw [Element.descendants_eq]
  exact h

/-! ## Progress -/

namespace Cursor

variable {α β : Type} {c d : Cursor}

/-- The cursor `d` is on a boundary of the same text, neither before `c` nor past the end. -/
structure Reaches (c d : Cursor) : Prop where
  source : d.source = c.source
  forward : c.position ≤ d.position
  within : d.position ≤ d.stop
  boundary : d.rest?.isSome = true

/-- There is a result, with a cursor that `c` reaches. -/
def Gives (c : Cursor) (x : Option α) (after : α → Cursor) : Prop :=
  ∃ a, x = some a ∧ c.Reaches (after a)

/-- A turn of a loop has a result, and if the loop goes on, the cursor is further on. -/
def Progresses (c : Cursor) (x : Option (Turn α β)) (again : α → Cursor) (done : β → Cursor) :
    Prop :=
  ∃ t, x = some t ∧
    match t with
    | .again a => c.Reaches (again a) ∧ c.position < (again a).position
    | .done b => c.Reaches (done b)

theorem boundary_before (hs : s <:+ source) : (before source s).rest?.isSome = true := by
  rw [rest?_before hs]
  rfl

theorem reaches_before (hs : s <:+ source) (ht : t <:+ s) :
    (before source s).Reaches (before source t) := by
  have h₁ := position_before hs
  have h₂ := position_before (ht.trans hs)
  have h₃ := byteSize_le_of_suffix ht
  exact ⟨rfl, by omega, Nat.sub_le _ _, boundary_before (ht.trans hs)⟩

theorem lt_before (hs : s <:+ source) (ht : t <:+ s) (hlt : t.length < s.length) :
    (before source s).position < (before source t).position := by
  have h₁ := position_before hs
  have h₂ := position_before (ht.trans hs)
  obtain ⟨u, rfl⟩ := ht
  have hu : byteSize u ≠ 0 := by
    rw [Ne, byteSize_eq_zero]
    rintro rfl
    exact Nat.lt_irrefl _ hlt
  rw [byteSize_append] at h₁
  omega

theorem Reaches.trans {b : Cursor} (hb : b.Reaches c) (hc : c.Reaches d) : b.Reaches d :=
  ⟨hc.source.trans hb.source, Nat.le_trans hb.forward hc.forward, hc.within, hc.boundary⟩

/-- A loop of which every turn progresses comes to an end with the text. -/
theorem gives_of_progresses (turn : α → Option (Turn α β)) (loop : α → Option β)
    (cursor : α → Cursor) (done : β → Cursor)
    (hagain : ∀ a a', turn a = some (.again a') → loop a = loop a')
    (hdone : ∀ a b, turn a = some (.done b) → loop a = some b)
    (hturn : ∀ a, (cursor a).rest?.isSome = true → (cursor a).Progresses (turn a) cursor done)
    (a : α) (ha : (cursor a).rest?.isSome = true) : (cursor a).Gives (loop a) done := by
  generalize hn : (cursor a).stop - (cursor a).position = n
  induction n using Nat.strong_induction_on generalizing a with
  | h n ih =>
    obtain ⟨t, hrun, hprogress⟩ := hturn a ha
    cases t with
    | done b => exact ⟨b, hdone a b hrun, hprogress⟩
    | again a' =>
      obtain ⟨hreach, hlt⟩ := hprogress
      have hstop : (cursor a').stop = (cursor a).stop := congrArg byteSize hreach.source
      have hwithin := hreach.within
      obtain ⟨b, hb, hlast⟩ := ih _ (by omega) a' hreach.boundary rfl
      exact ⟨b, (hagain a a' hrun).trans hb, hreach.trans hlast⟩

/-- The reader at a cursor: nothing that it does fails or leads back, past the end or off the
boundaries, and each of its loops gets on with every turn that is not the last. -/
structure Sound (c : Cursor) : Prop where
  advance (n : Nat) : c.Gives (c.advance? n) id
  blanks : c.Gives c.skipBlanks? id
  declaration : ∃ skipped, c.skipDeclaration? = some skipped ∧
    ∀ d ∈ skipped, c.Reaches d ∧ c.position < d.position
  name : c.Gives c.name? Prod.snd
  text : c.Gives c.text? Prod.snd
  value : c.Gives c.value? Prod.snd
  verbatim (tag : String) : c.Gives (c.verbatim? tag) Prod.snd
  attrsTurn (attrs : NameTable) : c.Progresses (c.attrsTurn? attrs) Prod.snd Prod.snd
  attrs (attrs : NameTable) : c.Gives (c.attrs? attrs) Prod.snd
  element : c.Gives c.element? Prod.snd
  contentTurn (e : Element) : c.Progresses (c.contentTurn? e) Prod.snd (·.2.2)
  content (e : Element) : c.Gives (c.content? e) (·.2.2)
  visitTurn {σ : Type} (visit : Element → σ → ForInStep σ) (state : σ) :
    c.Progresses (c.visitTurn? visit state) Prod.snd Prod.snd
  visit {σ : Type} (visit : Element → σ → ForInStep σ) (state : σ) :
    c.Gives (c.visit? visit state) Prod.snd

theorem advance?_gives (hs : s <:+ source) (n : Nat) :
    (before source s).Gives ((before source s).advance? n) id := by
  obtain ⟨t, ht, hrun, hle, -⟩ := advance?_spec source s n
  have h₁ := position_before hs
  have h₂ := position_before ht
  have hforward : (before source s).position ≤ (before source t).position := by omega
  exact ⟨before source t, hrun, rfl, hforward, Nat.sub_le _ _, boundary_before ht⟩

theorem attrsTurn?_progresses (hs : s <:+ source) (attrs : NameTable) :
    (before source s).Progresses ((before source s).attrsTurn? attrs) Prod.snd Prod.snd := by
  refine ⟨_, attrsTurn?_before hs attrs, ?_⟩
  unfold attrsTurn
  cases h : skipBlanks s with
  | nil => exact reaches_before hs List.nil_suffix
  | cons d r =>
    have hr := suffix_of_skipBlanks h
    have hlt := length_of_skipBlanks h
    by_cases hend : d = '>' ∨ d = '/'
    · simp only [hend, if_true]
      exact reaches_before hs (h ▸ skipBlanks_suffix s)
    · by_cases hname : isNameChar d = true
      · have hassigned := (readAssigned_suffix (r.dropWhile isNameChar)).trans
          (List.dropWhile_suffix isNameChar)
        simp only [hend, if_false, hname, if_true]
        exact ⟨reaches_before hs (hassigned.trans hr),
          lt_before hs (hassigned.trans hr) (Nat.lt_of_le_of_lt hassigned.length_le hlt)⟩
      · simp only [hend, if_false, hname]
        exact ⟨reaches_before hs hr, lt_before hs hr hlt⟩

theorem contentTurn?_progresses (hs : s <:+ source) (e : Element) :
    (before source s).Progresses ((before source s).contentTurn? e) Prod.snd (·.2.2) := by
  have hgoes {d : Char} {r t : List Char} (h : skipBlanks s = d :: r) (ht : t <:+ r) :
      (before source s).Reaches (before source t) ∧
        (before source s).position < (before source t).position := by
    have hts := ht.trans (suffix_of_skipBlanks h)
    have hlt := Nat.lt_of_le_of_lt ht.length_le (length_of_skipBlanks h)
    exact ⟨reaches_before hs hts, lt_before hs hts hlt⟩
  obtain ⟨a, ha, hahead⟩ := ahead?_before hs e
  rw [contentTurn?, ha]
  cases hahead with
  | declared h hd => exact ⟨_, rfl, hgoes h (declared?_suffix hd)⟩
  | text h hd => exact ⟨_, rfl, hgoes h (List.dropWhile_suffix _)⟩
  | @child r h hd hslash =>
    have htag : '<' :: r <:+ source := (h ▸ skipBlanks_suffix s).trans hs
    obtain ⟨child, rest, hrun, hyield⟩ := element?_before htag fun t ht =>
      readsContent (ht.trans ((List.suffix_cons '<' r).trans htag))
    simp only [Option.bind_eq_bind, Option.bind_some, hrun]
    exact ⟨_, rfl, hgoes h hyield.suffix⟩
  | @closed r h =>
    have hrest := (skipPast_suffix ['>'] r).trans (List.suffix_cons '/' r)
    exact ⟨_, rfl, (hgoes h hrest).1⟩
  | ended h => exact ⟨_, rfl, reaches_before hs List.nil_suffix⟩

theorem element?_gives (hs : s <:+ source) :
    (before source s).Gives (before source s).element? Prod.snd := by
  by_cases hlt : s.head? = some '<'
  · obtain ⟨s, rfl⟩ := List.head?_eq_some_iff.mp hlt
    obtain ⟨e, rest, hrun, hyield⟩ := element?_before hs fun t ht =>
      readsContent (ht.trans ((List.suffix_cons '<' s).trans hs))
    exact ⟨_, hrun, reaches_before hs (hyield.suffix.trans (List.suffix_cons '<' s))⟩
  · refine ⟨({}, before source s), ?_, reaches_before hs (List.suffix_refl s)⟩
    rw [element?, sees_eq_before hs (by decide), decide_eq_false hlt]
    rfl

theorem visitTurn?_progresses (hs : s <:+ source) {σ : Type} (visit : Element → σ → ForInStep σ)
    (state : σ) :
    (before source s).Progresses ((before source s).visitTurn? visit state) Prod.snd Prod.snd := by
  obtain ⟨t, hrun, hturn⟩ := visitTurn?_before hs visit state
  refine ⟨t, hrun, ?_⟩
  cases t with
  | again result =>
    obtain ⟨r, hc, hr, hlt, -⟩ := hturn
    show (before source s).Reaches result.2 ∧ _ < result.2.position
    rw [hc]
    exact ⟨reaches_before hs hr, lt_before hs hr hlt⟩
  | done result =>
    obtain ⟨r, hc, hr, -⟩ := hturn
    show (before source s).Reaches result.2
    rw [hc]
    exact reaches_before hs hr

theorem skipDeclaration?_progresses (hs : s <:+ source) :
    ∃ skipped, (before source s).skipDeclaration? = some skipped ∧
      ∀ d ∈ skipped, (before source s).Reaches d ∧ (before source s).position < d.position := by
  refine ⟨_, skipDeclaration?_before hs, fun d hd => ?_⟩
  obtain ⟨r, hr, rfl⟩ := Option.map_eq_some_iff.mp (Option.mem_def.mp hd)
  obtain ⟨t, rfl⟩ : ∃ t, s = '<' :: t := by
    unfold declared? at hr
    split at hr
    · exact ⟨_, rfl⟩
    · exact ⟨_, rfl⟩
    · exact ⟨_, rfl⟩
    · cases hr
  have hsuffix := declared?_suffix hr
  have hts := hsuffix.trans (List.suffix_cons '<' t)
  exact ⟨reaches_before hs hts, lt_before hs hts (Nat.lt_succ_of_le hsuffix.length_le)⟩

theorem exists_before (hc : c.rest?.isSome = true) :
    ∃ source s, s <:+ source ∧ c = before source s := by
  obtain ⟨s, hs⟩ := Option.isSome_iff_exists.mp hc
  exact ⟨_, s, rest?_eq_some.mp hs⟩

theorem attrs?_gives (hc : c.rest?.isSome = true) (attrs : NameTable) :
    c.Gives (c.attrs? attrs) Prod.snd := by
  refine gives_of_progresses (fun a : NameTable × Cursor => a.2.attrsTurn? a.1)
    (fun a => a.2.attrs? a.1) Prod.snd Prod.snd (fun a a' h => ?_) (fun a b h => ?_)
    (fun a ha => ?_) (attrs, c) hc
  · rw [attrs?, h]
    rfl
  · rw [attrs?, h]
    rfl
  · obtain ⟨source, s, hs, he⟩ := exists_before ha
    rw [he]
    exact attrsTurn?_progresses hs a.1

theorem content?_gives (hc : c.rest?.isSome = true) (e : Element) :
    c.Gives (c.content? e) (·.2.2) := by
  refine gives_of_progresses (fun a : Element × Cursor => a.2.contentTurn? a.1)
    (fun a => a.2.content? a.1) Prod.snd (·.2.2) (fun a a' h => ?_) (fun a b h => ?_)
    (fun a ha => ?_) (e, c) hc
  · rw [content?, h]
    rfl
  · rw [content?, h]
    rfl
  · obtain ⟨source, s, hs, he⟩ := exists_before ha
    rw [he]
    exact contentTurn?_progresses hs a.1

theorem visit?_gives (hc : c.rest?.isSome = true) {σ : Type}
    (visit : Element → σ → ForInStep σ) (state : σ) :
    c.Gives (c.visit? visit state) Prod.snd := by
  refine gives_of_progresses (fun a : σ × Cursor => a.2.visitTurn? visit a.1)
    (fun a => a.2.visit? visit a.1) Prod.snd Prod.snd (fun a a' h => ?_) (fun a b h => ?_)
    (fun a ha => ?_) (state, c) hc
  · rw [visit?, h]
    rfl
  · rw [visit?, h]
    rfl
  · obtain ⟨source, s, hs, he⟩ := exists_before ha
    rw [he]
    exact visitTurn?_progresses hs visit a.1

theorem sound_before (hs : s <:+ source) : (before source s).Sound where
  advance := advance?_gives hs
  blanks := ⟨_, skipBlanks?_before hs, reaches_before hs (skipBlanks_suffix s)⟩
  declaration := skipDeclaration?_progresses hs
  name := ⟨_, name?_before hs, reaches_before hs (List.dropWhile_suffix _)⟩
  text := ⟨_, text?_before hs, reaches_before hs (List.dropWhile_suffix _)⟩
  value := ⟨_, value?_before hs, reaches_before hs (readValue_suffix s)⟩
  verbatim tag := ⟨_, verbatim?_before hs tag, reaches_before hs (readVerbatim_suffix tag s)⟩
  attrsTurn := attrsTurn?_progresses hs
  attrs := attrs?_gives (boundary_before hs)
  element := element?_gives hs
  contentTurn := contentTurn?_progresses hs
  content := content?_gives (boundary_before hs)
  visitTurn := visitTurn?_progresses hs
  visit := visit?_gives (boundary_before hs)

/-- On every boundary the reader is sound. -/
theorem sound_of_boundary (hc : c.rest?.isSome = true) : c.Sound := by
  obtain ⟨source, s, hs, rfl⟩ := exists_before hc
  exact sound_before hs

end Cursor

/-- Reading starts on a boundary, and on every boundary of a text the reader is sound. So every
text is read as a document, and below its root there are no more elements than there are `<` in
the text. -/
theorem parse_progresses (text : String) :
    (Cursor.start text).rest?.isSome = true ∧
    (∀ position, (⟨text.toList, position⟩ : Cursor).rest?.isSome = true →
      (⟨text.toList, position⟩ : Cursor).Sound) ∧
    Cursor.parse? text = some (parse text) ∧
    (parse text).descendants.length ≤ text.toList.count '<' := by
  refine ⟨?_, fun _ hboundary => sound_of_boundary hboundary, parse?_eq text,
    length_descendants_parse text⟩
  rw [start_eq]
  exact boundary_before (List.suffix_refl _)

/-- There is no boundary within a character of two bytes, but there is one behind it. -/
theorem parse_progresses_accented :
    (⟨"<p>é</p>".toList, 4⟩ : Cursor).rest? = none ∧
      (⟨"<p>é</p>".toList, 5⟩ : Cursor).rest?.isSome = true ∧
      (⟨"<p>é</p>".toList, 5⟩ : Cursor).Sound :=
  ⟨by decide, by decide, (parse_progresses "<p>é</p>").2.1 5 (by decide)⟩

end ScreenMarkup.Markup
