import ScreenMarkup.Proofs.Markup.Writing

/-!
# Reading back what was written

The reader keeps a stack of unclosed elements. Reading the writing of an
element, with any stack, hands the element to the innermost unclosed one and
goes on behind it.
-/

set_option autoImplicit false

namespace ScreenMarkup

open Text

namespace Element

mutual
/-- The element without the sources that buttons keep. -/
def dropSource : Element → Element
  | ⟨tag, attrs, text, children, _⟩ => ⟨tag, attrs, text, dropSources children, ""⟩
def dropSources : List Element → List Element
  | [] => []
  | e :: es => dropSource e :: dropSources es
end

/-- The element and all that stands below it are proper. -/
def WellFormed (e : Element) : Prop := ∀ d ∈ e :: e.descendants, d.Proper

theorem WellFormed.child {e d : Element} (he : e.WellFormed) (hd : d ∈ e.children) :
    d.WellFormed := by
  intro c hc
  apply he
  rw [descendants_eq]
  exact List.mem_cons_of_mem _ (mem_listing.mpr ⟨d, hd, List.mem_cons.mp hc⟩)

end Element

namespace Markup

/-! ## Going on -/

variable {stack more : List Unclosed} {u outer : Unclosed} {c : Char} {s r : List Char}

/-- The top-level elements from here on, with some elements unclosed. -/
def resume (stack : List Unclosed) (s : List Char) : List Element := assemble stack s (scan s)

/-- Hands an element that is complete to the innermost unclosed one, and goes on. -/
def give (stack : List Unclosed) (e : Element) (s : List Char) : List Element :=
  match stack with
  | [] => e :: resume [] s
  | u :: more => resume (u.addChild e :: more) s

theorem resume_skipped (h : next c s = (.skipped, r)) :
    resume stack (c :: s) = resume stack r := by
  rw [resume, scan, h]
  cases stack <;> rfl

theorem resume_opening {tag : String} {attrs : NameTable}
    (h : next c s = (.opening tag attrs, r)) :
    resume stack (c :: s) = resume (⟨tag, attrs, r, "", []⟩ :: stack) r := by
  rw [resume, scan, h]
  cases stack <;> rfl

theorem resume_whole {tag text : String} {attrs : NameTable}
    (h : next c s = (.whole tag attrs text, r)) :
    resume stack (c :: s) = give stack ⟨tag, attrs, text, [], ""⟩ r := by
  rw [resume, scan, h]
  cases stack <;> rfl

theorem resume_text {t : String} (h : next c s = (.text t, r)) :
    resume (u :: more) (c :: s) = resume (u.addText t :: more) r := by
  rw [resume, scan, h]
  rfl

theorem resume_closing (h : next c s = (.closing, r)) :
    resume (u :: more) (c :: s) = give more (u.close (c :: s)) r := by
  rw [resume, scan, h]
  cases more <;> rfl

/-! ## Gaps -/

theorem resume_skipBlanks (stack : List Unclosed) (s : List Char) :
    resume stack (skipBlanks s) = resume stack s := by
  cases s with
  | nil => rfl
  | cons c s =>
    by_cases hc : isAsciiBlank c = true
    · have hnext : next c s = (.skipped, skipBlanks s) := by rw [next, if_pos hc]
      have hskip : skipBlanks (c :: s) = skipBlanks s := List.dropWhile_cons_of_pos hc
      rw [resume_skipped hnext, hskip]
    · rw [skipBlanks_cons (Bool.not_eq_true _ ▸ hc)]

theorem resume_blanks {b : List Char} (hb : IsBlanks b) (stack : List Unclosed) (s : List Char) :
    resume stack (b ++ s) = resume stack s := by
  rw [← resume_skipBlanks, skipBlanks_append hb, resume_skipBlanks]

theorem resume_comment {body : List Char} (hb : contains "-->".toList body = false)
    (stack : List Unclosed) (s : List Char) :
    resume stack ("<!--".toList ++ body ++ "-->".toList ++ s) = resume stack s := by
  have hcut : cut? "-->".toList (body ++ "-->".toList ++ s) = some (body, s) :=
    cut?_append (p := ['-', '-']) (z := '>') (by decide) hb s
  have hnext : next '<' ('!' :: '-' :: '-' :: (body ++ "-->".toList ++ s)) = (.skipped, s) := by
    rw [next_tag]
    show (Lexeme.skipped, skipPast "-->".toList (body ++ "-->".toList ++ s)) = _
    rw [skipPast, hcut]
  exact resume_skipped hnext

theorem Gap.resume {gap : List Char} (hg : Gap gap) (stack : List Unclosed) (s : List Char) :
    resume stack (gap ++ s) = Markup.resume stack s := by
  induction hg with
  | nil => rfl
  | @blank c gap hc _ ih =>
    have hb : IsBlanks [c] := fun d hd => by rwa [List.mem_singleton.mp hd]
    rw [← ih]
    exact resume_blanks hb stack (gap ++ s)
  | @comment body gap hb _ ih =>
    rw [← ih, List.append_assoc]
    exact resume_comment hb stack (gap ++ s)

/-! ## Text -/

/-- The next thing that is not a blank is markup. -/
def Opens (s : List Char) : Prop := ∃ b r, IsBlanks b ∧ s = b ++ '<' :: r

theorem Opens.markup (r : List Char) : Opens ('<' :: r) :=
  ⟨[], r, fun _ h => (by cases h), rfl⟩

theorem Gap.opens {gap : List Char} (hg : Gap gap) {s : List Char} (hs : Opens s) :
    Opens (gap ++ s) := by
  induction hg with
  | nil => exact hs
  | @blank c gap hc _ ih =>
    obtain ⟨b, r, hb, he⟩ := ih
    refine ⟨c :: b, r, fun d hd => ?_, by rw [List.cons_append, he]; rfl⟩
    rcases List.mem_cons.mp hd with rfl | hd
    · exact hc
    · exact hb d hd
  | comment => exact Opens.markup _

/-- Text runs to the next markup, and the blanks before that are trimmed. -/
theorem resume_written {t : String} (ht : IsText t) {s : List Char} (hs : Opens s) :
    resume (u :: more) (t.toList ++ s) = resume (u.addText t :: more) s := by
  obtain ⟨b, r, hb, rfl⟩ := hs
  have htight := (trim_eq_self_iff _).mp ht.2
  cases he : t.toList with
  | nil =>
    have hempty : t = "" := String.toList_eq_nil_iff.mp he
    have hsame : u.addText t = u := by
      rw [hempty, Unclosed.addText, String.append_empty]
    rw [hsame]
    rfl
  | cons c l =>
    have hblank : isAsciiBlank c = false := by
      rw [← Bool.not_eq_true]
      intro h
      have hfirst := htight.first c (by rw [he]; rfl)
      rw [isBlank_of_isAsciiBlank h] at hfirst
      cases hfirst
    have hc : c ≠ '<' := by
      rintro rfl
      exact ht.1 (by rw [he]; exact List.mem_cons_self)
    have hl : ∀ d ∈ l ++ b, decide (d ≠ '<') = true := by
      intro d hd
      apply decide_eq_true
      rintro rfl
      rcases List.mem_append.mp hd with hd | hd
      · exact ht.1 (by rw [he]; exact List.mem_cons_of_mem _ hd)
      · exact absurd (hb _ hd) (by decide)
    obtain ⟨htake, hdrop⟩ := takeWhile_to (p := (decide <| · ≠ '<')) (s := '<' :: r) hl
      fun d hd => by
        cases hd
        rfl
    rw [List.append_assoc] at htake hdrop
    have htrim : trim (c :: (l ++ b)) = t.toList := by
      rw [← List.cons_append, ← he]
      apply htight.trim_append (fun d hd => isBlank_of_isAsciiBlank (hb d hd))
      rw [he]
      exact List.cons_ne_nil _ _
    have hnext : next c (l ++ (b ++ '<' :: r)) = (.text t, '<' :: r) := by
      rw [next, if_neg (by rw [hblank]; decide), if_neg hc, htake, hdrop, htrim,
        String.ofList_toList]
    rw [List.cons_append, resume_text hnext, resume_blanks hb]

/-! ## Elements -/

/-- A closing tag closes the innermost element, whatever its name. -/
theorem resume_closingName {name : String} (hgt : '>' ∉ name.toList) (s : List Char) :
    resume (u :: more) (closingTag name ++ s) = give more (u.close (closingTag name ++ s)) s := by
  have hcut : cut? ['>'] (name.toList ++ ['>'] ++ s) = some (name.toList, s) :=
    cut?_singleton.mpr ⟨hgt, List.append_assoc name.toList ['>'] s⟩
  have hnext : next '<' ('/' :: (name.toList ++ ['>'] ++ s)) = (.closing, s) := by
    rw [next_tag]
    show (Lexeme.closing, skipPast ['>'] (name.toList ++ ['>'] ++ s)) = _
    rw [skipPast, hcut]
  exact resume_closing hnext

theorem resume_closingTag {tag : String} (ht : IsName tag) (s : List Char) :
    resume (u :: more) (closingTag tag ++ s) = give more (u.close (closingTag tag ++ s)) s :=
  resume_closingName (fun hmem => absurd (ht.isNameChar _ hmem) (by decide)) s

/-- Hands over several elements in order. -/
def giveAll (stack : List Unclosed) (es : List Element) (s : List Char) : List Element :=
  match stack with
  | [] => es ++ resume [] s
  | u :: more => resume ({ u with children := es.reverse ++ u.children } :: more) s

theorem giveAll_nil (stack : List Unclosed) (s : List Char) :
    giveAll stack [] s = resume stack s := by
  cases stack <;> rfl

/-- The first of several elements goes before the others. -/
theorem give_cons {e : Element} {es : List Element} {t : List Char}
    (h : ∀ stack, resume stack t = giveAll stack es s) (stack : List Unclosed) :
    give stack e t = giveAll stack (e :: es) s := by
  cases stack with
  | nil =>
    rw [give, h]
    rfl
  | cons u more =>
    rw [give, h, giveAll, giveAll, List.reverse_cons, List.append_assoc]
    rfl

theorem Writes.markup {e e' : Element} {s : List Char} (hw : Writes e s e') :
    ∃ l, s = '<' :: l := by
  cases hw with
  | verbatim hv hs =>
    cases hs
    exact ⟨_, rfl⟩
  | plain hv hs hg hc =>
    cases hs
    exact ⟨_, rfl⟩

theorem WritesAll.opens {es es' : List Element} {s : List Char} (hw : WritesAll es s es')
    {r : List Char} (hr : Opens r) : Opens (s ++ r) := by
  cases hw with
  | nil hg => exact hg.opens hr
  | cons hg he hes =>
    obtain ⟨l, rfl⟩ := he.markup
    rw [List.append_assoc, List.append_assoc]
    exact hg.opens (Opens.markup _)

/-- The element of which everything has been read. -/
theorem close_eq {tag text : String} {attrs : NameTable} (content r : List Char)
    (children : List Element) :
    (Unclosed.mk tag attrs (content ++ r) text children.reverse).close r =
      ⟨tag, attrs, text, children, if tag = "button" then String.ofList content else ""⟩ := by
  rw [Unclosed.close, take_before, List.reverse_reverse]
  simp only [Unclosed.keepsSource, decide_eq_true_eq]

mutual
/-- What is written as an element is read as one, whatever is unclosed and whatever follows. -/
theorem Writes.resume {e e' : Element} {s : List Char} (hw : Writes e s e')
    (he : e.WellFormed) (stack : List Unclosed) (r : List Char) :
    resume stack (s ++ r) = give stack e' r := by
  have hproper : e.Proper := he e List.mem_cons_self
  match hw with
  | .verbatim hv hs =>
    obtain ⟨hchildren, htext⟩ := hproper.verbatim hv
    obtain ⟨l, rfl, hread⟩ := hs.read hproper.tag hproper.attrs
      (e.text.toList ++ closingTag e.tag ++ r)
    rw [readTagEnd_gt, if_pos hv, readVerbatim_closingTag hproper.tag htext,
      String.ofList_toList] at hread
    rw [List.append_assoc, List.append_assoc, List.cons_append]
    rw [List.append_assoc] at hread
    rw [resume_whole hread, ← hchildren]
  | @Writes.plain _ start gap body children hv hs hg hc =>
    obtain ⟨l, rfl, hread⟩ := hs.read hproper.tag hproper.attrs
      (gap ++ e.text.toList ++ body ++ (closingTag e.tag ++ r))
    rw [readTagEnd_gt, if_neg (by rw [hv]; decide)] at hread
    have hopens : Opens (body ++ (closingTag e.tag ++ r)) := hc.opens (Opens.markup _)
    have hall := hc.resume (fun d hd => he.child hd)
      (⟨e.tag, e.attrs, gap ++ e.text.toList ++ body ++ (closingTag e.tag ++ r), e.text, []⟩ ::
        stack)
      (closingTag e.tag ++ r)
    rw [giveAll, List.append_nil, resume_closingTag hproper.tag, close_eq] at hall
    have hcontent (u : Unclosed) :
        Markup.resume (u :: stack) (gap ++ e.text.toList ++ body ++ (closingTag e.tag ++ r)) =
          Markup.resume (u.addText e.text :: stack) (body ++ (closingTag e.tag ++ r)) := by
      rw [List.append_assoc, List.append_assoc, hg.resume,
        resume_written (hproper.text hv) hopens]
    rw [List.append_assoc, List.append_assoc, List.cons_append, resume_opening hread, hcontent,
      Unclosed.addText, String.empty_append]
    exact hall

theorem WritesAll.resume {es es' : List Element} {s : List Char} (hw : WritesAll es s es')
    (he : ∀ e ∈ es, e.WellFormed) (stack : List Unclosed) (r : List Char) :
    resume stack (s ++ r) = giveAll stack es' r := by
  match hw with
  | .nil hg => rw [hg.resume, giveAll_nil]
  | .cons hg hfirst hrest =>
    rw [List.append_assoc, List.append_assoc, hg.resume,
      hfirst.resume (he _ List.mem_cons_self)]
    exact give_cons (fun stack =>
      hrest.resume (fun e h => he e (List.mem_cons_of_mem _ h)) stack r) stack
end

/-! ## Whole documents -/

mutual
/-- Only the sources that buttons keep are filled in. -/
theorem Writes.dropSource {e e' : Element} {s : List Char} (hw : Writes e s e') :
    e'.dropSource = e.dropSource := by
  match hw with
  | .verbatim _ _ =>
    cases e
    rfl
  | .plain _ _ _ hc =>
    have hchildren := hc.dropSources
    cases e
    exact congrArg (Element.mk _ _ _ · "") hchildren

theorem WritesAll.dropSources {es es' : List Element} {s : List Char} (hw : WritesAll es s es') :
    Element.dropSources es' = Element.dropSources es := by
  match hw with
  | .nil _ => rfl
  | .cons _ hfirst hrest =>
    rw [Element.dropSources, Element.dropSources, hfirst.dropSource, hrest.dropSources]
end

theorem exists_writesAttrs {es : List (String × String)} (he : ∀ a ∈ es, IsValue a.2) :
    ∃ s, WritesAttrs es s := by
  induction es with
  | nil => exact ⟨[], .nil⟩
  | cons a es ih =>
    obtain ⟨s, hs⟩ := ih fun b hb => he b (List.mem_cons_of_mem _ hb)
    obtain ⟨q, hq⟩ := he a List.mem_cons_self
    have hblank : IsBlanks [' '] := fun c hc => by
      rw [List.mem_singleton.mp hc]
      rfl
    have hnone : IsBlanks [] := fun c hc => (by cases hc)
    exact ⟨_, .cons q hq (List.cons_ne_nil _ _) hblank hnone hnone hs⟩

theorem exists_writesStart {e : Element} (he : e.Proper) :
    ∃ start, WritesStart e.tag e.attrs start := by
  obtain ⟨s, hs⟩ := exists_writesAttrs fun a ha => (he.attrs a ha).2
  exact ⟨_, .mk (b := []) (List.Perm.refl _) hs fun c hc => (by cases hc)⟩

mutual
theorem exists_writes : (e : Element) → e.WellFormed → ∃ s e', Writes e s e'
  | ⟨tag, attrs, text, children, inner⟩, he => by
    have hproper : (Element.mk tag attrs text children inner).Proper := he _ List.mem_cons_self
    obtain ⟨start, hs⟩ := exists_writesStart hproper
    by_cases hv : isVerbatim tag = true
    · exact ⟨_, _, .verbatim hv hs⟩
    · obtain ⟨body, es, hc⟩ := exists_writesAll children fun d hd => he.child hd
      exact ⟨_, _, .plain (Bool.not_eq_true _ ▸ hv) hs .nil hc⟩

theorem exists_writesAll : (es : List Element) → (∀ e ∈ es, e.WellFormed) →
    ∃ s es', WritesAll es s es'
  | [], _ => ⟨[], [], .nil .nil⟩
  | e :: es, he => by
    obtain ⟨s, e', hw⟩ := exists_writes e (he e List.mem_cons_self)
    obtain ⟨t, es', hws⟩ := exists_writesAll es fun d hd => he d (List.mem_cons_of_mem _ hd)
    exact ⟨_, _, .cons .nil hw hws⟩
end

theorem parse_written {es es' : List Element} {s : List Char} (hw : WritesAll es s es')
    (he : ∀ e ∈ es, e.WellFormed) : (parse (String.ofList s)).children = es' := by
  have hread := hw.resume he [] []
  rw [List.append_nil, giveAll] at hread
  show assemble [] (String.ofList s).toList (scan (String.ofList s).toList) = es'
  rw [String.toList_ofList]
  rw [show resume [] [] = [] by rw [resume, scan]; rfl, List.append_nil] at hread
  exact hread

/-- Whatever the text, the elements read from it are proper, and only buttons keep their source.
Conversely, all well-formed elements can be written, and whichever way they are written, they
are read back, each button with the source between its two tags. -/
theorem parse_image_and_round_trip :
    (∀ (text : String) (e : Element), e ∈ (parse text).descendants →
      e.Proper ∧ (e.tag ≠ "button" → e.inner = "")) ∧
    (∀ es : List Element, (∀ e ∈ es, e.WellFormed) →
      (∃ s es', WritesAll es s es') ∧
      ∀ s es', WritesAll es s es' → (parse (String.ofList s)).children = es' ∧
        Element.dropSources es' = Element.dropSources es) := by
  constructor
  · intro text e he
    exact parse_read text e he
  · intro es he
    refine ⟨exists_writesAll es he, fun s es' hw => ?_⟩
    exact ⟨parse_written hw he, hw.dropSources⟩

/-- A button with a comment, a text and a child. -/
theorem parse_written_button :
    (parse "<button id='x'> <!--c-->Hi<i></i></button>").children =
      [⟨"button", NameTable.ofList [("id", "x")], "Hi", [⟨"i", .empty, "", [], ""⟩],
        " <!--c-->Hi<i></i>"⟩] := by
  obtain ⟨-, hround⟩ := parse_image_and_round_trip
  have hchild : (Element.mk "i" .empty "" [] "").Proper :=
    ⟨⟨by decide, List.all_eq_true.mp (by decide)⟩, fun a ha => (by cases ha), fun _ => isText_empty,
      fun h => absurd h (by decide)⟩
  have hbutton : (Element.mk "button" (NameTable.ofList [("id", "x")]) "Hi"
      [⟨"i", .empty, "", [], ""⟩] "").Proper := by
    refine ⟨⟨by decide, List.all_eq_true.mp (by decide)⟩, fun a ha => ?_,
      fun _ => ⟨by decide, by decide⟩, fun h => absurd h (by decide)⟩
    rw [List.mem_singleton.mp (NameTable.mem_ofList ha)]
    exact ⟨⟨by decide, List.all_eq_true.mp (by decide)⟩, .single, by simp [Quoting.Admits]⟩
  have hwell : ∀ e ∈ [Element.mk "button" (NameTable.ofList [("id", "x")]) "Hi"
      [⟨"i", .empty, "", [], ""⟩] ""], e.WellFormed := by
    intro e he d hd
    rw [List.mem_singleton.mp he] at hd
    simp only [Element.descendants, Element.listing, List.append_nil, List.mem_cons,
      List.not_mem_nil, or_false] at hd
    rcases hd with rfl | rfl
    · exact hbutton
    · exact hchild
  have hblank : IsBlanks [' '] := by
    intro c hc
    rw [List.mem_singleton.mp hc]
    rfl
  have hnone : IsBlanks [] := fun c hc => (by cases hc)
  have hid : WritesAttrs [("id", "x")] [' ', 'i', 'd', '=', '\'', 'x', '\''] :=
    .cons .single (by simp [Quoting.Admits]) (List.cons_ne_nil _ _) hblank hnone hnone .nil
  have hcomment : Gap ("<!--".toList ++ ['c'] ++ "-->".toList ++ []) :=
    .comment (by decide) .nil
  have hsmall : Writes ⟨"i", .empty, "", [], ""⟩ _ _ :=
    .plain rfl (.mk (b := []) (List.Perm.refl _) .nil hnone) .nil (.nil .nil)
  have hwrites : WritesAll [⟨"button", NameTable.ofList [("id", "x")], "Hi",
      [⟨"i", .empty, "", [], ""⟩], ""⟩] _ _ :=
    .cons .nil
      (.plain rfl (.mk (b := []) (List.Perm.refl _) hid hnone) (.blank (c := ' ') rfl hcomment)
        (.cons .nil hsmall (.nil .nil)))
      (.nil .nil)
  exact ((hround _ hwell).2 _ _ hwrites).1

end Markup
end ScreenMarkup
