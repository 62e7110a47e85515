import ScreenMarkup.Proofs.Markup.Cursor
import ScreenMarkup.Proofs.Markup.RoundTrip
import ScreenMarkup.Proofs.Markup.Search

/-!
# Reading documents with a cursor

The cursor reads an element with all that stands in it before it goes on with
the next one, and the lexemes of a text are assembled with a stack of unclosed
elements. Both come to the same document: where the cursor has read an element,
that element is handed to the innermost unclosed one, whatever the stack is.
-/

set_option autoImplicit false

namespace ScreenMarkup.Markup

open Text Cursor

variable {source s t r here rest : List Char} {u v : Unclosed} {e : Element}

/-! ## What stands at a `<` -/

theorem next_declared (h : declared? ('<' :: s) = some r) : next '<' s = (.skipped, r) := by
  rw [next_tag]
  fun_cases readTag s with
  | case1 t =>
    cases h
    rfl
  | case2 t ht =>
    rw [declared?] at h
    · cases h
      rfl
    · exact ht
  | case3 t =>
    cases h
    rfl
  | case4 t => cases h
  | case5 _ h₁ h₂ h₃ =>
    rw [declared?] at h
    · cases h
    · intro t ht
      exact h₁ t (List.cons.inj ht).2
    · intro t ht
      exact h₂ t (List.cons.inj ht).2
    · intro t ht
      exact h₃ t (List.cons.inj ht).2

theorem next_start (hd : declared? ('<' :: s) = none) (hslash : s.head? ≠ some '/') :
    next '<' s = readStart (skipBlanks s) := by
  rw [next_tag]
  fun_cases readTag s with
  | case1 t => cases hd
  | case2 t ht =>
    rw [declared?] at hd
    · cases hd
    · exact ht
  | case3 t => cases hd
  | case4 t => exact absurd rfl hslash
  | case5 => rfl

theorem next_slash (s : List Char) : next '<' ('/' :: s) = (.closing, skipPast ['>'] s) := by
  rw [next_tag]
  rfl

/-! ## Content -/

/-- The element as far as it has been read. -/
def Unclosed.soFar (u : Unclosed) : Element := ⟨u.tag, u.attrs, u.text, u.children.reverse, ""⟩

theorem soFar_addChild (u : Unclosed) (e : Element) :
    (u.addChild e).soFar = u.soFar.withChild e := by
  rw [Element.withChild, Unclosed.soFar, Unclosed.addChild, List.reverse_cons]
  rfl

/-- Reading on from `s` completes the element, with its content up to `here`. -/
structure Closes (s : List Char) (u v : Unclosed) (here rest : List Char) : Prop where
  tag : v.tag = u.tag
  body : v.body = u.body
  here_suffix : here <:+ s
  rest_suffix : rest <:+ here
  resume (more : List Unclosed) : resume (u :: more) s = give more (v.close here) rest

/-- The cursor reads the content that stands at `s`, whatever has been read before. -/
def ReadsContent (source s : List Char) : Prop :=
  ∀ u : Unclosed, ∃ v stop here rest,
    (before source s).content? u.soFar = some (v.soFar, stop, before source rest) ∧
    stop.getD (byteSize source) = (before source here).position ∧ Closes s u v here rest

/-- What is read at a `<` is an element, or is left out where it has no name. -/
structure Yields (s : List Char) (e : Element) (rest : List Char) : Prop where
  suffix : rest <:+ s
  resume (h : next '<' s = readStart (skipBlanks s)) (stack : List Unclosed) :
    resume stack ('<' :: s) = if e.tag = "" then resume stack rest else give stack e rest

theorem skipBlanks_readAttrs (s : List Char) : skipBlanks (readAttrs s).2 = (readAttrs s).2 := by
  have h := readAttrs_rest s
  cases hr : (readAttrs s).2 with
  | nil => rfl
  | cons d t =>
    rw [hr] at h
    rcases h d rfl with rfl | rfl
    · exact skipBlanks_cons (by decide) t
    · exact skipBlanks_cons (by decide) t

theorem body?_before (hs : s <:+ source) (tag : String) (attrs : NameTable)
    (hcontent : ReadsContent source s) : ∃ e rest,
      (before source s).body? ⟨tag, attrs, "", [], ""⟩ = some (e, before source rest) ∧
      rest <:+ s ∧ e.tag = tag ∧ ∀ stack c r, next c r = readBody tag attrs s →
        resume stack (c :: r) = give stack e rest := by
  rw [body?]
  by_cases hv : isVerbatim tag = true
  · have hread : readBody tag attrs s = _ := if_pos hv
    rw [if_pos hv, verbatim?_before hs]
    refine ⟨_, _, rfl, readVerbatim_suffix tag s, rfl, fun stack c r hnext => ?_⟩
    exact resume_whole (hnext.trans hread)
  · have hread : readBody tag attrs s = _ := if_neg hv
    obtain ⟨v, stop, here, rest, hrun, hstop, hclose⟩ := hcontent ⟨tag, attrs, s, "", []⟩
    obtain ⟨w, hw⟩ := hclose.here_suffix
    have hsource : v.body.take (v.body.length - here.length) = w := by
      rw [hclose.body, ← hw]
      exact take_before w here
    have hslice : (before source rest).slice? (before source s).position
        (stop.getD (before source rest).stop) = some w := by
      have hparts : w ++ here <:+ source := hw ▸ hs
      have := slice?_before hparts
      rw [hw, ← hstop] at this
      exact this
    have hgoes (stack : List Unclosed) (c : Char) (r : List Char)
        (hnext : next c r = readBody tag attrs s) :
        resume stack (c :: r) = give stack (v.close here) rest :=
      (resume_opening (hnext.trans hread)).trans (hclose.resume stack)
    have hcontent : (before source s).content? ⟨tag, attrs, "", [], ""⟩ =
        some (v.soFar, stop, before source rest) := hrun
    refine ⟨v.close here, rest, ?_, hclose.rest_suffix.trans hclose.here_suffix, hclose.tag, hgoes⟩
    rw [if_neg hv, hcontent]
    simp only [Option.bind_eq_bind, Option.bind_some, hslice, Unclosed.close, Unclosed.soFar]
    split
    · rw [hsource]
    · rfl

theorem readTagEnd_body (tag : String) (attrs : NameTable) (hs : s.head? ≠ some '/') :
    readTagEnd tag attrs s =
      readBody tag attrs (if s.head? = some '>' then s.tail else s) := by
  cases s with
  | nil => rfl
  | cons d s =>
    rw [readTagEnd_of_ne (by simpa using hs)]
    simp only [List.head?_cons, Option.some.injEq, List.tail_cons]

theorem suffix_of_accept (d : Char) (s : List Char) :
    (if s.head? = some d then s.tail else s) <:+ s := by
  split
  · exact List.tail_suffix s
  · exact List.suffix_refl s

theorem element?_before (hs : '<' :: s <:+ source)
    (hcontent : ∀ t, t <:+ s → ReadsContent source t) : ∃ e rest,
      (before source ('<' :: s)).element? = some (e, before source rest) ∧ Yields s e rest := by
  have hs' := (List.suffix_cons '<' s).trans hs
  have hskip := (skipBlanks_suffix s).trans hs'
  have hrest := (List.dropWhile_suffix isNameChar).trans hskip
  have hsees : ((before source ('<' :: s)).sees (· = '<')) = true := by
    rw [sees_eq_before hs (by decide)]
    rfl
  rw [element?, hsees, advance?_one hs]
  simp only [Bool.not_true, Bool.false_eq_true, if_false, Option.bind_eq_bind, Option.bind_some,
    skipBlanks?_before hs', name?_before hskip, lowered_eq_empty]
  by_cases hname : (skipBlanks s).takeWhile isNameChar = []
  · refine ⟨{}, _, if_pos hname, (List.dropWhile_suffix _).trans (skipBlanks_suffix s),
      fun hnext stack => ?_⟩
    have hstart : readStart (skipBlanks s) = (.skipped, skipBlanks s) := by
      rw [readStart, if_pos hname]
    have hdrop : (skipBlanks s).dropWhile isNameChar = skipBlanks s := by
      have := List.takeWhile_append_dropWhile (p := isNameChar) (l := skipBlanks s)
      rwa [hname] at this
    rw [if_pos rfl, resume_skipped (hnext.trans hstart), hdrop]
  · have hstop := (readAttrs_suffix _).trans hrest
    rw [if_neg hname, attrs?_before hrest]
    simp only [Option.bind_some, skipBlanks?_before hstop, skipBlanks_readAttrs]
    generalize htag : lowered ((skipBlanks s).takeWhile isNameChar) = tag
    generalize hend : (readAttrs ((skipBlanks s).dropWhile isNameChar)).2 = t at hstop ⊢
    have hnamed : tag ≠ "" := fun h => hname (lowered_eq_empty.mp (htag.trans h))
    have hsuffix : t <:+ s := by
      rw [← hend]
      exact (readAttrs_suffix _).trans ((List.dropWhile_suffix _).trans (skipBlanks_suffix s))
    have hstart : readStart (skipBlanks s) = readTagEnd tag (NameTable.ofList
        (readAttrs ((skipBlanks s).dropWhile isNameChar)).1) t := by
      rw [readStart, if_neg hname, htag, hend]
    rw [sees_eq_before hstop (by decide)]
    simp only [decide_eq_true_eq]
    by_cases hslash : t.head? = some '/'
    · obtain ⟨t, rfl⟩ := List.head?_eq_some_iff.mp hslash
      have ht := (List.suffix_cons '/' t).trans hstop
      rw [if_pos hslash, advance?_one hstop, Option.bind_some, accept?_before ht (by decide)]
      refine ⟨_, _, rfl, (suffix_of_accept _ _).trans ((List.suffix_cons '/' t).trans hsuffix),
        fun hnext stack => ?_⟩
      rw [if_neg hnamed]
      exact resume_whole (hnext.trans (hstart.trans (readTagEnd_slash tag _ t)))
    · have haccept := suffix_of_accept '>' t
      obtain ⟨e, rest, hbody, hrest, htag, hgoes⟩ := body?_before (haccept.trans hstop) tag
        (NameTable.ofList (readAttrs ((skipBlanks s).dropWhile isNameChar)).1)
        (hcontent _ (haccept.trans hsuffix))
      refine ⟨e, rest, ?_, hrest.trans (haccept.trans hsuffix), fun hnext stack => ?_⟩
      · rw [if_neg hslash, accept?_before hstop (by decide), Option.bind_some]
        exact hbody
      · rw [if_neg (htag ▸ hnamed)]
        exact hgoes stack _ _ (hnext.trans (hstart.trans (readTagEnd_body tag _ hslash)))

/-- What may come next in the content of an element, with the part of the text it is found by. -/
inductive Foresees (source s : List Char) (e : Element) : Ahead → Prop
  | declared {r rest : List Char} (h : skipBlanks s = '<' :: r)
    (hd : declared? ('<' :: r) = some rest) : Foresees source s e (.passed e (before source rest))
  | text {d : Char} {r : List Char} (h : skipBlanks s = d :: r) (hd : d ≠ '<') :
    Foresees source s e (.passed
      (e.withText (e.text ++ String.ofList (trim (d :: r.takeWhile (· ≠ '<')))))
      (before source (r.dropWhile (· ≠ '<'))))
  | child {r : List Char} (h : skipBlanks s = '<' :: r) (hd : declared? ('<' :: r) = none)
    (hslash : r.head? ≠ some '/') : Foresees source s e (.child (before source ('<' :: r)))
  | closed {r : List Char} (h : skipBlanks s = '<' :: '/' :: r) :
    Foresees source s e (.over (some (before source ('<' :: '/' :: r)).position)
      (before source (skipPast ['>'] r)))
  | ended (h : skipBlanks s = []) : Foresees source s e (.over none (before source []))

theorem isPrefixOf_closing (r : List Char) :
    "</".toList.isPrefixOf ('<' :: r) = decide (r.head? = some '/') := by
  cases r with
  | nil => rfl
  | cons d r =>
    by_cases hd : d = '/'
    · subst hd
      rfl
    · simp [List.isPrefixOf, Ne.symm hd, hd]

theorem ahead?_before (hs : s <:+ source) (e : Element) :
    ∃ a, (before source s).ahead? e = some a ∧ Foresees source s e a := by
  rw [ahead?, atEnd_before hs]
  cases s with
  | nil => exact ⟨_, rfl, .ended rfl⟩
  | cons x s =>
    have hskip := (skipBlanks_suffix (x :: s)).trans hs
    rw [List.isEmpty_cons, if_neg Bool.false_ne_true, skipBlanks?_before hs]
    simp only [Option.bind_eq_bind, Option.bind_some, atEnd_before hskip,
      sees_eq_before (e := '<') hskip (by decide)]
    cases hblank : skipBlanks (x :: s) with
    | nil => exact ⟨_, rfl, .ended hblank⟩
    | cons d r =>
      rw [hblank] at hskip
      simp only [List.isEmpty_cons, Bool.false_eq_true, if_false, List.head?_cons,
        Option.some_inj, decide_eq_true_eq]
      by_cases hd : d = '<'
      · subst hd
        rw [if_pos rfl, skipDeclaration?_before hskip]
        cases hdeclared : declared? ('<' :: r) with
        | some rest => exact ⟨_, rfl, .declared hblank hdeclared⟩
        | none =>
          simp only [Option.map_none, Option.bind_some, rest?_before hskip, isPrefixOf_closing,
            decide_eq_true_eq]
          by_cases hslash : r.head? = some '/'
          · obtain ⟨r, rfl⟩ := List.head?_eq_some_iff.mp hslash
            rw [if_pos hslash, pass?_before hskip, skipPast_cons (by decide),
              skipPast_cons (by decide)]
            exact ⟨_, rfl, .closed hblank⟩
          · exact ⟨_, if_neg hslash, .child hblank hdeclared hslash⟩
      · have hmore : decide (d ≠ '<') = true := decide_eq_true hd
        rw [if_neg hd, text?_before hskip,
          List.takeWhile_cons_of_pos (p := (decide <| · ≠ '<')) hmore,
          List.dropWhile_cons_of_pos (p := (decide <| · ≠ '<')) hmore]
        exact ⟨_, rfl, .text hblank hd⟩

theorem length_of_skipBlanks {d : Char} (h : skipBlanks s = d :: r) : r.length < s.length := by
  have := skipBlanks_length_le s
  rw [h, List.length_cons] at this
  omega

theorem suffix_of_skipBlanks {d : Char} (h : skipBlanks s = d :: r) : r <:+ s :=
  (List.suffix_cons d r).trans (h ▸ skipBlanks_suffix s)

theorem not_blank_of_skipBlanks {d : Char} (h : skipBlanks s = d :: r) :
    ¬ isAsciiBlank d = true := by
  have hstop := List.head?_dropWhile_not isAsciiBlank s
  rw [skipBlanks] at h
  rw [h] at hstop
  exact Bool.eq_false_iff.mp hstop

theorem declared?_suffix (h : declared? ('<' :: s) = some r) : r <:+ s := by
  have := next_suffix '<' s
  rwa [next_declared h] at this

/-- What comes before the rest of the content changes what has been read so far. -/
theorem Closes.step {u' : Unclosed} (h : Closes t u' v here rest) (ht : t <:+ s)
    (htag : u'.tag = u.tag) (hbody : u'.body = u.body)
    (hresume : ∀ more, Markup.resume (u :: more) s = Markup.resume (u' :: more) t) :
    Closes s u v here rest where
  tag := h.tag.trans htag
  body := h.body.trans hbody
  here_suffix := h.here_suffix.trans ht
  rest_suffix := h.rest_suffix
  resume more := (hresume more).trans (h.resume more)

theorem resume_end (u : Unclosed) (more : List Unclosed) :
    resume (u :: more) [] = give more (u.close []) [] := by
  have hend (stack : List Unclosed) : resume stack [] = assemble stack [] [] := by
    rw [resume, scan]
  cases more <;> rw [give, hend, hend] <;> rfl

/-- Whatever the content is, it is read to its end. -/
theorem readsContent (hs : s <:+ source) : ReadsContent source s := by
  generalize hn : s.length = n
  induction n using Nat.strong_induction_on generalizing s with
  | h n ih =>
    -- what is left after a character has been read
    have hlater {d : Char} {r : List Char} (h : skipBlanks s = d :: r) (t : List Char)
        (ht : t <:+ r) : ReadsContent source t :=
      ih t.length (hn ▸ Nat.lt_of_le_of_lt ht.length_le (length_of_skipBlanks h))
        (ht.trans ((suffix_of_skipBlanks h).trans hs)) rfl
    have hskip {d : Char} {r : List Char} (h : skipBlanks s = d :: r) (stack : List Unclosed) :
        resume stack s = resume stack (d :: r) := by
      rw [← h, resume_skipBlanks]
    intro u
    obtain ⟨a, ha, hahead⟩ := ahead?_before hs u.soFar
    rw [content?, contentTurn?, ha]
    cases hahead with
    | @declared r rest h hd =>
      have hrest := declared?_suffix hd
      obtain ⟨v, stop, here, last, hrun, hstop, hclose⟩ := hlater h rest hrest u
      refine ⟨v, stop, here, last, hrun, hstop,
        hclose.step (hrest.trans (suffix_of_skipBlanks h)) rfl rfl fun more => ?_⟩
      exact (hskip h _).trans (resume_skipped (next_declared hd))
    | @text d r h hd =>
      have hrest : r.dropWhile (· ≠ '<') <:+ r := List.dropWhile_suffix _
      obtain ⟨v, stop, here, last, hrun, hstop, hclose⟩ := hlater h _ hrest
        (u.addText (String.ofList (trim (d :: r.takeWhile (· ≠ '<')))))
      have hnext : next d r =
          (.text (String.ofList (trim (d :: r.takeWhile (· ≠ '<')))), r.dropWhile (· ≠ '<')) := by
        rw [next, if_neg (not_blank_of_skipBlanks h), if_neg hd]
      refine ⟨v, stop, here, last, hrun, hstop,
        hclose.step (hrest.trans (suffix_of_skipBlanks h)) rfl rfl fun more => ?_⟩
      exact (hskip h _).trans (resume_text hnext)
    | @child r h hd hslash =>
      obtain ⟨e, rest, helement, hyield⟩ := element?_before ((h ▸ skipBlanks_suffix s).trans hs)
        fun t ht => hlater h t ht
      have hnext := hyield.resume (next_start hd hslash)
      have hrest := hyield.suffix.trans (suffix_of_skipBlanks h)
      simp only [Option.bind_eq_bind, Option.bind_some, helement, adopt]
      by_cases hname : e.tag = ""
      · obtain ⟨v, stop, here, last, hrun, hstop, hclose⟩ := hlater h rest hyield.suffix u
        rw [if_pos hname]
        refine ⟨v, stop, here, last, hrun, hstop, hclose.step hrest rfl rfl fun more => ?_⟩
        exact (hskip h _).trans ((hnext _).trans (if_pos hname))
      · obtain ⟨v, stop, here, last, hrun, hstop, hclose⟩ :=
          hlater h rest hyield.suffix (u.addChild e)
        rw [if_neg hname, ← soFar_addChild]
        refine ⟨v, stop, here, last, hrun, hstop, hclose.step hrest rfl rfl fun more => ?_⟩
        exact (hskip h _).trans ((hnext _).trans (if_neg hname))
    | @closed r h =>
      refine ⟨u, _, '<' :: '/' :: r, skipPast ['>'] r, rfl, rfl, rfl, rfl,
        h ▸ skipBlanks_suffix s, ?_, fun more => ?_⟩
      · exact (skipPast_suffix _ r).trans (List.suffix_append ['<', '/'] r)
      · exact (hskip h _).trans (resume_closing (next_slash r))
    | ended h =>
      refine ⟨u, _, [], [], rfl, rfl, rfl, rfl, List.nil_suffix, List.nil_suffix, fun more => ?_⟩
      rw [← resume_skipBlanks, h, resume_end]

/-! ## Documents -/

/-- Outside of all elements everything up to a `<` is passed over. -/
theorem resume_stray (s : List Char) : resume [] (s.dropWhile (· ≠ '<')) = resume [] s := by
  induction s with
  | nil => rfl
  | cons d s ih =>
    by_cases hd : d = '<'
    · rw [List.dropWhile_cons_of_neg (by simpa using hd)]
    · rw [List.dropWhile_cons_of_pos (by simpa using hd)]
      by_cases hblank : isAsciiBlank d = true
      · have hskip : skipBlanks (d :: s) = skipBlanks s := List.dropWhile_cons_of_pos hblank
        rw [ih, ← resume_skipBlanks [] (d :: s), hskip, resume_skipBlanks]
      · have hnext : next d s =
            (.text (String.ofList (trim (d :: s.takeWhile (· ≠ '<')))), s.dropWhile (· ≠ '<')) := by
          rw [next, if_neg hblank, if_neg hd]
        rw [resume, resume, scan, hnext]
        rfl

section

variable {σ : Type}

/-- What a turn of the loop over a document comes to: more of the text is behind the cursor if the
loop goes on, and the visits that are left are those of the document from there on. -/
def TurnsAt (visit : Element → σ → ForInStep σ) (source s : List Char) (state : σ) :
    Turn (σ × Cursor) (σ × Cursor) → Prop
  | .again (state', c) => ∃ r, c = before source r ∧ r <:+ s ∧ r.length < s.length ∧
      (forIn (resume [] s) state visit : Id σ) = forIn (resume [] r) state' visit
  | .done (state', c) => ∃ r, c = before source r ∧ r <:+ s ∧
      (forIn (resume [] s) state visit : Id σ) = state'

theorem visitTurn?_before (hs : s <:+ source) (visit : Element → σ → ForInStep σ) (state : σ) :
    ∃ t, (before source s).visitTurn? visit state = some t ∧ TurnsAt visit source s state t := by
  have hskip := (skipBlanks_suffix s).trans hs
  rw [visitTurn?, skipBlanks?_before hs]
  simp only [Option.bind_eq_bind, Option.bind_some, atEnd_before hskip,
    sees_eq_before (e := '<') hskip (by decide)]
  cases hblank : skipBlanks s with
  | nil =>
    have hend : resume [] s = [] := by
      rw [← resume_skipBlanks, hblank, resume, scan]
      rfl
    refine ⟨_, rfl, [], rfl, List.nil_suffix, ?_⟩
    rw [hend]
    rfl
  | cons d r =>
    rw [hblank] at hskip
    have hresume : resume [] s = resume [] (d :: r) := by rw [← hblank, resume_skipBlanks]
    have hr := suffix_of_skipBlanks hblank
    have hlt := length_of_skipBlanks hblank
    simp only [List.isEmpty_cons, Bool.false_eq_true, if_false, List.head?_cons, Option.some_inj,
      Bool.not_eq_true', decide_eq_false_iff_not]
    by_cases hd : d = '<'
    · subst hd
      rw [if_neg (not_not_intro rfl), skipDeclaration?_before hskip]
      cases hdeclared : declared? ('<' :: r) with
      | some rest =>
        have hrest := declared?_suffix hdeclared
        refine ⟨_, rfl, rest, rfl, hrest.trans hr, Nat.lt_of_le_of_lt hrest.length_le hlt, ?_⟩
        rw [hresume, resume_skipped (next_declared hdeclared)]
      | none =>
        simp only [Option.map_none, Option.bind_some, rest?_before hskip, isPrefixOf_closing,
          decide_eq_true_eq]
        by_cases hslash : r.head? = some '/'
        · rw [if_pos hslash]
          obtain ⟨r, rfl⟩ := List.head?_eq_some_iff.mp hslash
          have hend : resume [] ('<' :: '/' :: r) = [] := by
            rw [resume, scan, next_slash]
            rfl
          refine ⟨_, rfl, _, rfl, hblank ▸ skipBlanks_suffix s, ?_⟩
          rw [hresume, hend]
          rfl
        · obtain ⟨e, rest, helement, hyield⟩ := element?_before hskip fun t ht =>
            readsContent (ht.trans ((List.suffix_cons '<' r).trans hskip))
          have hrest := hyield.suffix.trans hr
          have hshort := Nat.lt_of_le_of_lt hyield.suffix.length_le hlt
          have hnext := hyield.resume (next_start hdeclared hslash) []
          simp only [if_neg hslash, helement, Option.bind_some]
          by_cases hname : e.tag = ""
          · refine ⟨_, if_pos hname, rest, rfl, hrest, hshort, ?_⟩
            rw [hresume, hnext, if_pos hname]
          · have hgive : resume [] s = e :: resume [] rest :=
              hresume.trans (hnext.trans (if_neg hname))
            rw [if_neg hname]
            cases hvisit : visit e state with
            | yield state' =>
              refine ⟨_, rfl, rest, rfl, hrest, hshort, ?_⟩
              rw [hgive, forIn_yield hvisit]
            | done state' =>
              refine ⟨_, rfl, rest, rfl, hrest, ?_⟩
              rw [hgive, forIn_done hvisit]
    · rw [if_pos hd, advance?_one hskip]
      refine ⟨_, rfl, r, rfl, hr, hlt, ?_⟩
      have hmore : decide (d ≠ '<') = true := decide_eq_true hd
      have hstray : resume [] (d :: r) = resume [] r := by
        rw [← resume_stray (d :: r), ← resume_stray r,
          List.dropWhile_cons_of_pos (p := (decide <| · ≠ '<')) hmore]
      rw [hresume, hstray]

/-- A visit by cursor is a loop over the elements of the document that may end early. -/
theorem visit?_before (hs : s <:+ source) (visit : Element → σ → ForInStep σ) (state : σ) :
    ∃ r, r <:+ s ∧ (before source s).visit? visit state =
      some ((forIn (resume [] s) state visit : Id σ), before source r) := by
  generalize hn : s.length = n
  induction n using Nat.strong_induction_on generalizing s state with
  | h n ih =>
    obtain ⟨t, hrun, hturn⟩ := visitTurn?_before hs visit state
    rw [visit?, hrun]
    cases t with
    | done result =>
      obtain ⟨r, hc, hr, hvisits⟩ := hturn
      exact ⟨r, hr, congrArg some (Prod.ext hvisits.symm hc)⟩
    | again result =>
      obtain ⟨r, hc, hr, hlt, hvisits⟩ := hturn
      obtain ⟨last, hlast, hrest⟩ := ih r.length (hn ▸ hlt) (hr.trans hs) result.1 rfl
      refine ⟨last, hlast.trans hr, ?_⟩
      rw [hvisits, ← hrest, ← hc]
      rfl

end

theorem forIn_collect (es found : List Element) :
    (forIn es found (fun e es => ForInStep.yield (es ++ [e])) : Id (List Element)) =
      found ++ es := by
  induction es generalizing found with
  | nil => exact (List.append_nil found).symm
  | cons e es ih => rw [forIn_yield rfl, ih, List.append_assoc, List.singleton_append]

/-- A visit by cursor is the visit of the document. -/
theorem visit?_start (text : String) {σ : Type} (state : σ) (step : Element → σ → ForInStep σ) :
    ∃ c, (Cursor.start text).visit? step state = some (visit text state step, c) := by
  obtain ⟨r, -, hrun⟩ := visit?_before (List.suffix_refl text.toList) step state
  rw [start_eq, hrun, visit_eq_forIn]
  exact ⟨_, rfl⟩

/-- The cursor reads the document of the text. -/
theorem parse?_eq (text : String) : Cursor.parse? text = some (parse text) := by
  obtain ⟨c, hrun⟩ := visit?_start text [] fun e es => .yield (es ++ [e])
  rw [Cursor.parse?, hrun, visit_eq_forIn, forIn_collect]
  rfl

end ScreenMarkup.Markup
