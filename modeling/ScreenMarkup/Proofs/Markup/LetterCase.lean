import ScreenMarkup.Proofs.Markup.RoundTrip

/-!
# Tag names in other cases

Every start tag may be written in any case, and so may every closing tag but
those of verbatim elements. There the first closing tag in lowercase is searched
for, so another case leaves the element open and its text grows.
-/

set_option autoImplicit false

namespace ScreenMarkup

open Text

namespace Markup

/-! ## Recasing -/

/-- The start tag of a writing, and the same one with its name in another case. -/
inductive RecasesStart (tag : String) (attrs : NameTable) : List Char → List Char → Prop
  | mk (name : String) {es : List (String × String)} {s b : List Char}
    (hn : lowered name.toList = tag) (hp : es.Perm attrs.entries) (hs : WritesAttrs es s)
    (hb : IsBlanks b) :
    RecasesStart tag attrs ('<' :: tag.toList ++ s ++ b ++ ['>'])
      ('<' :: name.toList ++ s ++ b ++ ['>'])

mutual
/-- The first text is a writing of the element, and the second one is the same writing with tag
names in other cases, those of `loud` verbatim closing tags among them. -/
inductive Recases : Element → List Char → List Char → Nat → Prop
  | verbatim {e : Element} {start start' : List Char} (hv : isVerbatim e.tag = true)
    (hs : RecasesStart e.tag e.attrs start start') (name : String)
    (hn : lowered name.toList = e.tag) :
    Recases e (start ++ e.text.toList ++ closingTag e.tag)
      (start' ++ e.text.toList ++ closingTag name) (if name = e.tag then 0 else 1)
  | plain {e : Element} {start start' gap body body' : List Char} {loud : Nat}
    (hv : isVerbatim e.tag = false) (hs : RecasesStart e.tag e.attrs start start') (hg : Gap gap)
    (hc : RecasesAll e.children body body' loud) (name : String)
    (hn : lowered name.toList = e.tag) :
    Recases e (start ++ (gap ++ e.text.toList ++ body) ++ closingTag e.tag)
      (start' ++ (gap ++ e.text.toList ++ body') ++ closingTag name) loud

inductive RecasesAll : List Element → List Char → List Char → Nat → Prop
  | nil {gap : List Char} (hg : Gap gap) : RecasesAll [] gap gap 0
  | cons {e : Element} {es : List Element} {gap s s' t t' : List Char} {k l : Nat} (hg : Gap gap)
    (he : Recases e s s' k) (hes : RecasesAll es t t' l) :
    RecasesAll (e :: es) (gap ++ s ++ t) (gap ++ s' ++ t') (k + l)
end

theorem RecasesStart.writes {tag : String} {attrs : NameTable} {start start' : List Char}
    (h : RecasesStart tag attrs start start') : WritesStart tag attrs start := by
  obtain ⟨_, -, hp, hs, hb⟩ := h
  exact .mk hp hs hb

mutual
/-- What is recased is a writing. -/
theorem Recases.writes {e : Element} {s s' : List Char} {loud : Nat} (h : Recases e s s' loud) :
    ∃ e', Writes e s e' := by
  match h with
  | .verbatim hv hs _ _ => exact ⟨_, .verbatim hv hs.writes⟩
  | .plain hv hs hg hc _ _ =>
    obtain ⟨children, hw⟩ := hc.writesAll
    exact ⟨_, .plain hv hs.writes hg hw⟩

theorem RecasesAll.writesAll {es : List Element} {s s' : List Char} {loud : Nat}
    (h : RecasesAll es s s' loud) : ∃ es', WritesAll es s es' := by
  match h with
  | .nil hg => exact ⟨[], .nil hg⟩
  | .cons hg he hes =>
    obtain ⟨e', hw⟩ := he.writes
    obtain ⟨es', hws⟩ := hes.writesAll
    exact ⟨e' :: es', .cons hg hw hws⟩
end

/-! ## Names in any case -/

theorem isNameChar_of_toLower {c : Char} (h : isLowerNameChar c.toLower = true) :
    isNameChar c = true := by
  rw [isNameChar_eq]
  by_cases hu : c.isUpper = true
  · rw [hu, Bool.true_or]
  · have hsame : c.toLower = c := dif_neg fun hr => hu (decide_eq_true hr)
    rw [hsame] at h
    rw [h, Bool.or_true]

/-- The same characters belong to names in every case. -/
theorem isNameChar_of_lowered {name tag : String} (hn : lowered name.toList = tag)
    (ht : IsName tag) : ∀ c ∈ name.toList, isNameChar c = true := by
  intro c hc
  apply isNameChar_of_toLower
  apply ht.2
  rw [← hn, lowered, String.toList_ofList]
  exact List.mem_map_of_mem hc

theorem gt_not_mem {name tag : String} (hn : lowered name.toList = tag) (ht : IsName tag) :
    '>' ∉ name.toList :=
  fun hmem => absurd (isNameChar_of_lowered hn ht _ hmem) (by decide)

theorem RecasesStart.read {tag : String} {attrs : NameTable} {start start' : List Char}
    (h : RecasesStart tag attrs start start') (ht : IsName tag)
    (ha : ∀ a ∈ attrs.entries, IsName a.1 ∧ IsValue a.2) (r : List Char) :
    ∃ s, start' = '<' :: s ∧ next '<' (s ++ r) = readTagEnd tag attrs ('>' :: r) := by
  obtain ⟨name, hn, hp, hs, hb⟩ := h
  next es s b =>
  refine ⟨name.toList ++ s ++ b ++ ['>'], rfl, ?_⟩
  have hne : name.toList ≠ [] := by
    intro h
    rw [h] at hn
    exact ht.1 hn.symm
  have hread := hs.next (fun a h => (ha a (hp.subset h)).1) hne (isNameChar_of_lowered hn ht) hb r
  rw [hread, hn, NameTable.ofList_eq hp]

theorem Recases.markup {e : Element} {s s' : List Char} {loud : Nat} (h : Recases e s s' loud) :
    ∃ l, s' = '<' :: l := by
  cases h with
  | verbatim hv hs name hn =>
    cases hs
    exact ⟨_, rfl⟩
  | plain hv hs hg hc name hn =>
    cases hs
    exact ⟨_, rfl⟩

theorem RecasesAll.opens {es : List Element} {s s' : List Char} {loud : Nat}
    (h : RecasesAll es s s' loud) {r : List Char} (hr : Opens r) : Opens (s' ++ r) := by
  cases h with
  | nil hg => exact hg.opens hr
  | cons hg he hes =>
    obtain ⟨l, rfl⟩ := he.markup
    rw [List.append_assoc, List.append_assoc]
    exact hg.opens (Opens.markup _)

/-! ## Reading -/

/-- Up to its children an element that is not verbatim is read in any case. -/
theorem RecasesStart.resume {e : Element} {start start' gap : List Char}
    (h : RecasesStart e.tag e.attrs start start') (he : e.Proper)
    (hv : isVerbatim e.tag = false) (hg : Gap gap) {r : List Char} (hr : Opens r)
    (stack : List Unclosed) :
    Markup.resume stack (start' ++ (gap ++ e.text.toList ++ r)) =
      Markup.resume (⟨e.tag, e.attrs, gap ++ e.text.toList ++ r, e.text, []⟩ :: stack) r := by
  obtain ⟨l, rfl, hread⟩ := h.read he.tag he.attrs (gap ++ e.text.toList ++ r)
  rw [readTagEnd_gt, if_neg (by rw [hv]; decide)] at hread
  rw [List.cons_append, resume_opening hread, List.append_assoc, hg.resume,
    resume_written (he.text hv) hr, Unclosed.addText, String.empty_append]

/-- The closing tag completes the element. -/
theorem resume_children {e : Element} {gap body : List Char} {name : String}
    (hn : '>' ∉ name.toList) (children : List Element) (stack : List Unclosed) (r : List Char) :
    Markup.resume
        (⟨e.tag, e.attrs, gap ++ e.text.toList ++ (body ++ (closingTag name ++ r)), e.text,
          children.reverse⟩ :: stack)
        (closingTag name ++ r) =
      give stack ⟨e.tag, e.attrs, e.text, children,
        if e.tag = "button" then String.ofList (gap ++ e.text.toList ++ body) else ""⟩ r := by
  rw [resume_closingName hn, ← List.append_assoc _ body, close_eq]

mutual
/-- While every verbatim closing tag is in lowercase, the element is read, apart from the sources
that buttons keep. -/
theorem Recases.resume {e : Element} {s s' : List Char} {loud : Nat} (h : Recases e s s' loud)
    (hl : loud = 0) (he : e.WellFormed) : ∃ e', e'.dropSource = e.dropSource ∧
      ∀ stack r, Markup.resume stack (s' ++ r) = give stack e' r := by
  have hproper : e.Proper := he e List.mem_cons_self
  match h with
  | .verbatim hv hs name hn =>
    obtain ⟨hchildren, htext⟩ := hproper.verbatim hv
    obtain rfl : name = e.tag := by
      by_contra hne
      rw [if_neg hne] at hl
      cases hl
    refine ⟨{ e with inner := "" }, by cases e; rfl, fun stack r => ?_⟩
    obtain ⟨l, rfl, hread⟩ := hs.read hproper.tag hproper.attrs
      (e.text.toList ++ closingTag e.tag ++ r)
    rw [readTagEnd_gt, if_pos hv, readVerbatim_closingTag hproper.tag htext,
      String.ofList_toList] at hread
    rw [List.append_assoc, List.append_assoc, List.cons_append]
    rw [List.append_assoc] at hread
    rw [resume_whole hread, ← hchildren]
  | @Recases.plain _ start start' gap body body' _ hv hs hg hc name hn =>
    obtain ⟨children, hsame, hread⟩ := hc.resume hl fun d hd => he.child hd
    refine ⟨⟨e.tag, e.attrs, e.text, children, if e.tag = "button" then
      String.ofList (gap ++ e.text.toList ++ body') else ""⟩, ?_, fun stack r => ?_⟩
    · cases e
      exact congrArg (Element.mk _ _ _ · "") hsame
    · have hopens : Opens (body' ++ (closingTag name ++ r)) := hc.opens (Opens.markup _)
      have hsource : start' ++ (gap ++ e.text.toList ++ body') ++ closingTag name ++ r =
          start' ++ (gap ++ e.text.toList ++ (body' ++ (closingTag name ++ r))) := by
        simp only [List.append_assoc]
      rw [hsource, hs.resume hproper hv hg hopens, hread, giveAll, List.append_nil,
        resume_children (gt_not_mem hn hproper.tag)]

theorem RecasesAll.resume {es : List Element} {s s' : List Char} {loud : Nat}
    (h : RecasesAll es s s' loud) (hl : loud = 0) (he : ∀ e ∈ es, e.WellFormed) :
    ∃ es', Element.dropSources es' = Element.dropSources es ∧
      ∀ stack r, Markup.resume stack (s' ++ r) = giveAll stack es' r := by
  match h with
  | .nil hg => exact ⟨[], rfl, fun stack r => by rw [hg.resume, giveAll_nil]⟩
  | .cons hg hfirst hrest =>
    obtain ⟨e', hsame, hread⟩ := hfirst.resume (by omega) (he _ List.mem_cons_self)
    obtain ⟨es', hsames, hreads⟩ :=
      hrest.resume (by omega) fun e h => he e (List.mem_cons_of_mem _ h)
    refine ⟨e' :: es', ?_, fun stack r => ?_⟩
    · rw [Element.dropSources, Element.dropSources, hsame, hsames]
    · rw [List.append_assoc, List.append_assoc, hg.resume, hread]
      exact give_cons (fun stack => hreads stack r) stack
end

/-! ## Verbatim bodies -/

/-- The bodies of the verbatim elements in document order. -/
def bodies (es : List Element) : List String :=
  ((Element.listing es).filter fun e => isVerbatim e.tag).map Element.text

theorem listing_append (es fs : List Element) :
    Element.listing (es ++ fs) = Element.listing es ++ Element.listing fs := by
  induction es with
  | nil => rfl
  | cons e es ih =>
    rw [List.cons_append, Element.listing, Element.listing, ih, List.cons_append, List.append_assoc]

theorem bodies_append (es fs : List Element) : bodies (es ++ fs) = bodies es ++ bodies fs := by
  rw [bodies, listing_append, List.filter_append, List.map_append]
  rfl

/-- An element that is not verbatim has the bodies below it. -/
theorem bodies_plain {e : Element} (hv : isVerbatim e.tag = false) :
    bodies [e] = bodies e.children := by
  rw [bodies, Element.listing, Element.listing, List.append_nil, Element.descendants_eq,
    List.filter_cons_of_neg (by rw [hv]; decide)]
  rfl

theorem bodies_verbatim {e : Element} (hv : isVerbatim e.tag = true) (hc : e.children = []) :
    bodies [e] = [e.text] := by
  rw [bodies, Element.listing, Element.listing, List.append_nil, Element.descendants_eq, hc,
    Element.listing, List.filter_singleton, hv]
  rfl

mutual
theorem descendants_dropSource : (e : Element) →
    e.dropSource.descendants = e.descendants.map Element.dropSource
  | ⟨_, _, _, children, _⟩ => listing_dropSources children

theorem listing_dropSources : (es : List Element) →
    Element.listing (Element.dropSources es) = (Element.listing es).map Element.dropSource
  | [] => rfl
  | e :: es => by
    rw [Element.dropSources, Element.listing, Element.listing, descendants_dropSource e,
      listing_dropSources es, List.map_cons, List.map_append]
end

/-- Sources are no part of the bodies. -/
theorem bodies_dropSources (es : List Element) :
    bodies (Element.dropSources es) = bodies es := by
  have htag (e : Element) : e.dropSource.tag = e.tag := by cases e; rfl
  have htext (e : Element) : e.dropSource.text = e.text := by cases e; rfl
  rw [bodies, listing_dropSources, List.filter_map, List.map_map]
  simp only [Function.comp_def, htag, htext]
  rfl

/-! ## Bodies that have been read -/

/-- The bodies in what the unclosed elements have so far, which are not verbatim. -/
def bodiesSoFar : List Unclosed → List String
  | [] => []
  | u :: more => bodiesSoFar more ++ bodies u.children.reverse

def Plain (stack : List Unclosed) : Prop := ∀ u ∈ stack, isVerbatim u.tag = false

theorem bodiesSoFar_addChild (u : Unclosed) (e : Element) (more : List Unclosed) :
    bodiesSoFar (u.addChild e :: more) = bodiesSoFar (u :: more) ++ bodies [e] := by
  rw [bodiesSoFar, bodiesSoFar, Unclosed.addChild, List.reverse_cons, bodies_append,
    List.append_assoc]

theorem bodies_close {u : Unclosed} (hu : isVerbatim u.tag = false) (stop : List Char) :
    bodies [u.close stop] = bodies u.children.reverse := bodies_plain hu

theorem Plain.head {u : Unclosed} {more : List Unclosed} (h : Plain (u :: more)) :
    isVerbatim u.tag = false := h u List.mem_cons_self

theorem Plain.tail {u : Unclosed} {more : List Unclosed} (h : Plain (u :: more)) : Plain more :=
  fun v hv => h v (List.mem_cons_of_mem _ hv)

theorem Plain.cons {u : Unclosed} {more : List Unclosed} (hu : isVerbatim u.tag = false)
    (h : Plain more) : Plain (u :: more) := by
  intro v hv
  rcases List.mem_cons.mp hv with rfl | hv
  · exact hu
  · exact h v hv

theorem bodies_closeAll {more : List Unclosed} {u : Unclosed} (h : Plain (u :: more)) :
    bodies [u.closeAll more] = bodiesSoFar (u :: more) := by
  induction more generalizing u with
  | nil => exact bodies_close h.head []
  | cons outer more ih =>
    have houter : Plain (outer.addChild (u.close []) :: more) := .cons h.tail.head h.tail.tail
    rw [Unclosed.closeAll, ih houter, bodiesSoFar_addChild, bodies_close h.head]
    rfl

/-- Whatever follows, the bodies that have been read come first. -/
theorem bodiesSoFar_prefix {lexemes : List (Lexeme × List Char)}
    (hl : ∀ l ∈ lexemes, l.1.Proper) {stack : List Unclosed} (hs : Plain stack)
    (here : List Char) : bodiesSoFar stack <+: bodies (assemble stack here lexemes) := by
  induction lexemes generalizing stack here with
  | nil =>
    cases stack with
    | nil => exact List.nil_prefix
    | cons u more =>
      exact ⟨[], (List.append_nil _).trans (bodies_closeAll hs).symm⟩
  | cons l later ih =>
    obtain ⟨lexeme, rest⟩ := l
    have hlexeme : lexeme.Proper := hl _ List.mem_cons_self
    have hlater : ∀ l ∈ later, l.1.Proper := fun l h => hl l (List.mem_cons_of_mem _ h)
    cases lexeme with
    | opening tag attrs =>
      have hplain : Plain (⟨tag, attrs, rest, "", []⟩ :: stack) := .cons hlexeme.2.2 hs
      have h := ih hlater hplain rest
      rwa [bodiesSoFar, List.reverse_nil, show bodies [] = [] from rfl, List.append_nil] at h
    | whole tag attrs text =>
      cases stack with
      | nil => exact List.nil_prefix
      | cons u more =>
        have hplain : Plain (u.addChild ⟨tag, attrs, text, [], ""⟩ :: more) := .cons hs.head hs.tail
        have h := ih hlater hplain rest
        rw [bodiesSoFar_addChild] at h
        exact (List.prefix_append _ _).trans h
    | closing =>
      cases stack with
      | nil => exact List.nil_prefix
      | cons u more =>
        cases more with
        | nil =>
          show _ <+: bodies ([u.close here] ++ assemble [] rest later)
          rw [bodies_append, bodies_close hs.head]
          exact List.prefix_append _ _
        | cons outer more =>
          have hplain : Plain (outer.addChild (u.close here) :: more) :=
            .cons hs.tail.head hs.tail.tail
          have h := ih hlater hplain rest
          rwa [bodiesSoFar_addChild, bodies_close hs.head] at h
    | text t =>
      cases stack with
      | nil => exact List.nil_prefix
      | cons u more =>
        have hplain : Plain (u.addText t :: more) := .cons hs.head hs.tail
        exact ih hlater hplain rest
    | skipped => exact ih hlater hs rest

theorem bodiesSoFar_resume {stack : List Unclosed} (hs : Plain stack) (r : List Char) :
    bodiesSoFar stack <+: bodies (Markup.resume stack r) :=
  bodiesSoFar_prefix (scan_proper r) hs r

theorem bodies_give {stack : List Unclosed} (hs : Plain stack) (e : Element) (r : List Char) :
    bodiesSoFar stack ++ bodies [e] <+: bodies (give stack e r) := by
  cases stack with
  | nil =>
    show _ <+: bodies ([e] ++ Markup.resume [] r)
    rw [bodies_append]
    exact List.prefix_append _ _
  | cons u more =>
    have hplain : Plain (u.addChild e :: more) := .cons hs.head hs.tail
    rw [← bodiesSoFar_addChild]
    exact bodiesSoFar_resume hplain r

/-! ## The first body that differs -/

/-- Another case of its closing tag does not end a body where it was written to end. -/
theorem readVerbatim_recased {tag name : String} (ht : IsName tag)
    (hn : lowered name.toList = tag) (hne : name ≠ tag) (text r : List Char) :
    (readVerbatim tag (text ++ (closingTag name ++ r))).1 ≠ text := by
  intro h
  unfold readVerbatim at h
  cases hcut : cut? ("</".toList ++ tag.toList ++ ['>']) (text ++ (closingTag name ++ r)) with
  | none =>
    rw [hcut] at h
    have hlength := congrArg List.length (show text ++ (closingTag name ++ r) = text from h)
    simp [closingTag] at hlength
  | some parts =>
    rw [hcut] at h
    obtain rfl : parts.1 = text := h
    have hsource := cut?_eq_some hcut
    rw [List.append_assoc, List.append_cancel_left_eq] at hsource
    have hnames : name.toList ++ '>' :: r = tag.toList ++ '>' :: parts.2 := by
      simpa [closingTag] using hsource
    have hgt : '>' ∉ tag.toList := fun hmem => absurd (ht.isNameChar _ hmem) (by decide)
    exact hne (String.toList_inj.mp (first_cut (gt_not_mem hn ht) hgt hnames).1)

/-- What is read from the text has the bodies `bs` up to one that differs. -/
def Diverges (bs : List String) (s : List Char) : Prop :=
  ∃ same t, same ++ [t] <+: bs ∧ ∀ stack, Plain stack → ∀ r, ∃ t', t' ≠ t ∧
    bodiesSoFar stack ++ (same ++ [t']) <+: bodies (resume stack (s ++ r))

mutual
theorem Recases.diverges {e : Element} {s s' : List Char} {loud : Nat} (h : Recases e s s' loud)
    (hl : 0 < loud) (he : e.WellFormed) : Diverges (bodies [e]) s' := by
  have hproper : e.Proper := he e List.mem_cons_self
  match h with
  | .verbatim hv hs name hn =>
    have hne : name ≠ e.tag := by
      intro h
      rw [if_pos h] at hl
      exact Nat.lt_irrefl 0 hl
    obtain ⟨hchildren, -⟩ := hproper.verbatim hv
    refine ⟨[], e.text, ?_, fun stack hstack r => ?_⟩
    · rw [bodies_verbatim hv hchildren]
      exact List.prefix_rfl
    · obtain ⟨l, rfl, hread⟩ := hs.read hproper.tag hproper.attrs
        (e.text.toList ++ (closingTag name ++ r))
      have hother := readVerbatim_recased hproper.tag hn hne e.text.toList r
      rw [readTagEnd_gt, if_pos hv] at hread
      rw [List.append_assoc, List.append_assoc, List.cons_append, resume_whole hread]
      generalize readVerbatim e.tag (e.text.toList ++ (closingTag name ++ r)) = parts at hother ⊢
      refine ⟨String.ofList parts.1, ?_, ?_⟩
      · intro htext
        exact hother (by rw [← htext, String.toList_ofList])
      · have hbody : bodies [⟨e.tag, e.attrs, String.ofList parts.1, [], ""⟩] =
            [String.ofList parts.1] :=
          bodies_verbatim hv rfl
        rw [List.nil_append, ← hbody]
        exact bodies_give hstack _ parts.2
  | @Recases.plain _ start start' gap body body' _ hv hs hg hc name hn =>
    obtain ⟨same, t, hsame, hread⟩ := hc.diverges hl fun d hd => he.child hd
    refine ⟨same, t, by rwa [bodies_plain hv], fun stack hstack r => ?_⟩
    have hopens : Opens (body' ++ (closingTag name ++ r)) := hc.opens (Opens.markup _)
    have hsource : start' ++ (gap ++ e.text.toList ++ body') ++ closingTag name ++ r =
        start' ++ (gap ++ e.text.toList ++ (body' ++ (closingTag name ++ r))) := by
      simp only [List.append_assoc]
    rw [hsource, hs.resume hproper hv hg hopens]
    obtain ⟨t', hne, hbegins⟩ := hread
      (⟨e.tag, e.attrs, gap ++ e.text.toList ++ (body' ++ (closingTag name ++ r)), e.text, []⟩ ::
        stack)
      (.cons hv hstack) (closingTag name ++ r)
    refine ⟨t', hne, ?_⟩
    rwa [bodiesSoFar, List.reverse_nil, show bodies [] = [] from rfl, List.append_nil] at hbegins

theorem RecasesAll.diverges {es : List Element} {s s' : List Char} {loud : Nat}
    (h : RecasesAll es s s' loud) (hl : 0 < loud) (he : ∀ e ∈ es, e.WellFormed) :
    Diverges (bodies es) s' := by
  match h with
  | .nil _ => exact absurd hl (Nat.lt_irrefl 0)
  | @RecasesAll.cons e es gap s s' t t' k l hg hfirst hrest =>
    have hbodies : bodies (e :: es) = bodies [e] ++ bodies es := bodies_append [e] es
    have hwell : ∀ d ∈ es, d.WellFormed := fun d hd => he d (List.mem_cons_of_mem _ hd)
    have hsource (stack : List Unclosed) (r : List Char) :
        Markup.resume stack (gap ++ s' ++ t' ++ r) = Markup.resume stack (s' ++ (t' ++ r)) := by
      rw [List.append_assoc, List.append_assoc, hg.resume]
    by_cases hk : k = 0
    · -- the first element is read, and its bodies are its own
      obtain ⟨e', hsame, hread⟩ := hfirst.resume hk (he _ List.mem_cons_self)
      obtain ⟨same, u, hbegins, hreads⟩ := hrest.diverges (by omega) hwell
      have hbody : bodies [e'] = bodies [e] := by
        rw [← bodies_dropSources [e'], ← bodies_dropSources [e]]
        exact congrArg (fun d => bodies [d]) hsame
      refine ⟨bodies [e] ++ same, u, ?_, fun stack hstack r => ?_⟩
      · rw [hbodies, List.append_assoc]
        exact (List.prefix_append_right_inj _).mpr hbegins
      · rw [hsource, hread]
        cases stack with
        | nil =>
          obtain ⟨u', hne, hp⟩ := hreads [] hstack r
          refine ⟨u', hne, ?_⟩
          show _ <+: bodies ([e'] ++ _)
          rw [bodies_append, hbody, bodiesSoFar, List.nil_append, List.append_assoc]
          exact (List.prefix_append_right_inj _).mpr hp
        | cons v more =>
          obtain ⟨u', hne, hp⟩ := hreads (v.addChild e' :: more) (.cons hstack.head hstack.tail) r
          refine ⟨u', hne, ?_⟩
          rw [bodiesSoFar_addChild, hbody, List.append_assoc] at hp
          rw [List.append_assoc]
          exact hp
    · obtain ⟨same, u, hbegins, hread⟩ :=
        hfirst.diverges (Nat.pos_of_ne_zero hk) (he _ List.mem_cons_self)
      refine ⟨same, u, ?_, fun stack hstack r => ?_⟩
      · rw [hbodies]
        exact hbegins.trans (List.prefix_append _ _)
      · rw [hsource]
        exact hread stack hstack (t' ++ r)
end

theorem Diverges.ne {es fs : List Element} {s : List Char} (h : Diverges (bodies es) s)
    (hs : Markup.resume [] s = fs) : bodies fs ≠ bodies es := by
  intro he
  obtain ⟨same, t, hbegins, hread⟩ := h
  obtain ⟨t', hne, hp⟩ := hread [] (fun _ h => (by cases h)) []
  rw [List.append_nil, hs, he, bodiesSoFar, List.nil_append] at hp
  have heq := List.prefix_of_prefix_length_le hp hbegins (by simp)
  have hlast := List.IsPrefix.eq_of_length heq (by simp)
  exact hne (by simpa using hlast)

/-! ## Whole documents -/

theorem parse_children (s : List Char) :
    (parse (String.ofList s)).children = Markup.resume [] s := by
  show assemble [] (String.ofList s).toList (scan (String.ofList s).toList) = _
  rw [String.toList_ofList]
  rfl

/-- Tag names are read in any case. Only the closing tag of a verbatim element has to be in
lowercase: in another case it is taken for a part of the body. -/
theorem parse_recased {es : List Element} (he : ∀ e ∈ es, e.WellFormed) {s s' : List Char}
    {loud : Nat} (h : RecasesAll es s s' loud) :
    (∃ es', WritesAll es s es') ∧
      (Element.dropSources (parse (String.ofList s')).children =
        Element.dropSources (parse (String.ofList s)).children ↔ loud = 0) := by
  obtain ⟨es', hw⟩ := h.writesAll
  refine ⟨⟨es', hw⟩, ?_⟩
  rw [parse_written hw he, hw.dropSources, parse_children]
  constructor
  · intro hsame
    by_contra hl
    apply (h.diverges (Nat.pos_of_ne_zero hl) he).ne rfl
    rw [← bodies_dropSources, hsame, bodies_dropSources]
  · intro hl
    obtain ⟨fs, hsame, hread⟩ := h.resume hl he
    have hall := hread [] []
    rw [List.append_nil] at hall
    rw [hall, giveAll, show Markup.resume [] [] = [] by rw [Markup.resume, scan]; rfl,
      List.append_nil, hsame]

theorem script_wellFormed : (Element.mk "script" .empty "x" [] "").WellFormed := by
  intro d hd
  rw [Element.descendants_eq, Element.listing, List.mem_singleton] at hd
  subst hd
  exact ⟨⟨by decide, List.all_eq_true.mp (by decide)⟩, fun a ha => (by cases ha),
    fun h => absurd h (by decide), fun _ => ⟨rfl, by decide⟩⟩

/-- A paragraph and a script in mixed case. -/
theorem parse_recased_script :
    Element.dropSources (parse "<P><sCript>x</script></p>").children =
      Element.dropSources (parse "<p><script>x</script></p>").children := by
  have hwell : ∀ e ∈ [Element.mk "p" .empty "" [⟨"script", .empty, "x", [], ""⟩] ""],
      e.WellFormed := by
    intro e he d hd
    rw [List.mem_singleton.mp he] at hd
    rcases List.mem_cons.mp hd with rfl | hd
    · exact ⟨⟨by decide, List.all_eq_true.mp (by decide)⟩, fun a ha => (by cases ha),
        fun _ => isText_empty, fun h => absurd h (by decide)⟩
    · exact script_wellFormed d hd
  have hnone : IsBlanks [] := fun c hc => (by cases hc)
  have hscript : Recases ⟨"script", .empty, "x", [], ""⟩ _ _ _ :=
    .verbatim rfl (.mk (b := []) "sCript" rfl (List.Perm.refl _) .nil hnone) "script" rfl
  have hdocument : RecasesAll [⟨"p", .empty, "", [⟨"script", .empty, "x", [], ""⟩], ""⟩] _ _ _ :=
    .cons .nil
      (.plain rfl (.mk (b := []) "P" rfl (List.Perm.refl _) .nil hnone) .nil
        (.cons .nil hscript (.nil .nil)) "p" rfl)
      (.nil .nil)
  exact (parse_recased hwell hdocument).2.mpr rfl

/-- A script that is closed in capitals is read otherwise. -/
theorem not_parse_any_case : ¬ ∀ (es : List Element) (s s' : List Char) (loud : Nat),
    (∀ e ∈ es, e.WellFormed) → RecasesAll es s s' loud →
      Element.dropSources (parse (String.ofList s')).children =
        Element.dropSources (parse (String.ofList s)).children := by
  intro h
  have hwell : ∀ e ∈ [Element.mk "script" .empty "x" [] ""], e.WellFormed := by
    intro e he
    rw [List.mem_singleton.mp he]
    exact script_wellFormed
  have hnone : IsBlanks [] := fun c hc => (by cases hc)
  have hscript : Recases ⟨"script", .empty, "x", [], ""⟩ "<script>x</script>".toList
      "<script>x</SCRIPT>".toList 1 :=
    .verbatim (e := ⟨"script", .empty, "x", [], ""⟩) rfl
      (.mk (b := []) "script" rfl (List.Perm.refl _) .nil hnone) "SCRIPT" rfl
  have hloud : RecasesAll [⟨"script", .empty, "x", [], ""⟩] "<script>x</script>".toList
      "<script>x</SCRIPT>".toList 1 :=
    .cons .nil hscript (.nil .nil)
  obtain ⟨es', hw⟩ := hloud.writesAll
  have hsame := h _ _ _ _ hwell hloud
  rw [parse_written hw hwell, hw.dropSources, parse_children] at hsame
  apply (hloud.diverges Nat.one_pos hwell).ne rfl
  rw [← bodies_dropSources, hsame, bodies_dropSources]

end Markup
end ScreenMarkup
