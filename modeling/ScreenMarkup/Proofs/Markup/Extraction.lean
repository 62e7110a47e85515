import ScreenMarkup.Proofs.Markup.RoundTrip
import ScreenMarkup.Proofs.Text.Cutting

/-!
# Extracting a section

The source of a section is found by searching for texts, not for elements. A
document is a sequence of strokes, each of which starts with the only `<` in
it: a start tag with the text after it, or a closing tag. So the search for a
start tag comes to the first stroke that begins with the name, and the search
for a closing tag to the first element of that name that ends.
-/

set_option autoImplicit false

namespace ScreenMarkup

open Text

namespace Markup

/-! ## Texts without markup -/

def IsUnmarked (s : List Char) : Prop := '<' ∉ s ∧ '>' ∉ s

theorem isUnmarked_append {s t : List Char} :
    IsUnmarked (s ++ t) ↔ IsUnmarked s ∧ IsUnmarked t := by
  simp only [IsUnmarked, List.mem_append]
  tauto

theorem isUnmarked_cons {c : Char} {s : List Char} :
    IsUnmarked (c :: s) ↔ (c ≠ '<' ∧ c ≠ '>') ∧ IsUnmarked s := by
  simp only [IsUnmarked, List.mem_cons, ne_comm (a := c)]
  tauto

theorem IsName.isUnmarked {name : String} (hn : IsName name) : IsUnmarked name.toList :=
  ⟨fun h => absurd (hn.isNameChar _ h) (by decide), fun h => absurd (hn.isNameChar _ h) (by decide)⟩

theorem IsBlanks.isUnmarked {b : List Char} (hb : IsBlanks b) : IsUnmarked b :=
  ⟨fun h => absurd (hb _ h) (by decide), fun h => absurd (hb _ h) (by decide)⟩

theorem Quoting.isUnmarked_write {v : String} (hv : IsUnmarked v.toList) (q : Quoting) :
    IsUnmarked (q.write v) := by
  cases q <;> simp [write, isUnmarked_append, isUnmarked_cons, hv] <;> simp [IsUnmarked]

theorem WritesAttrs.isUnmarked {es : List (String × String)} {s : List Char}
    (hw : WritesAttrs es s) (hn : ∀ a ∈ es, IsName a.1 ∧ IsUnmarked a.2.toList) :
    IsUnmarked s := by
  induction hw with
  | nil => simp [IsUnmarked]
  | @cons name value es b₀ b₁ b₂ s q hq hne h₀ h₁ h₂ hs ih =>
    obtain ⟨hname, hvalue⟩ := hn _ List.mem_cons_self
    have hrest := ih fun a ha => hn a (List.mem_cons_of_mem _ ha)
    simp [isUnmarked_append, isUnmarked_cons, h₀.isUnmarked, h₁.isUnmarked, h₂.isUnmarked,
      hname.isUnmarked, q.isUnmarked_write hvalue, hrest]

/-- A start tag has its `>` at the end only, and nothing in it goes on with the name. -/
theorem WritesStart.shape {tag : String} {attrs : NameTable} {start : List Char}
    (hw : WritesStart tag attrs ('<' :: start))
    (ha : ∀ a ∈ attrs.entries, IsName a.1 ∧ IsUnmarked a.2.toList) :
    ∃ u, start = tag.toList ++ (u ++ ['>']) ∧ IsUnmarked u ∧
      ∀ c, (u ++ ['>']).head? = some c → isNameChar c = false := by
  generalize hstart : '<' :: start = whole at hw
  cases hw with
  | @mk es s b hp hs hb =>
    have hes : ∀ a ∈ es, IsName a.1 ∧ IsUnmarked a.2.toList := fun a h => ha a (hp.subset h)
    refine ⟨s ++ b, ?_, isUnmarked_append.mpr ⟨hs.isUnmarked hes, hb.isUnmarked⟩, fun c hc => ?_⟩
    · simpa using hstart
    · rw [List.append_assoc] at hc
      rcases hs.head hb hc with h | rfl
      · exact isNameChar_of_blank h
      · rfl

/-! ## Written elements -/

/-- An element as it is written: its start tag from the name on, its text, and its children. -/
structure Source where
  tag : String
  attrs : NameTable
  start : List Char
  text : String
  children : List Source
  written : WritesStart tag attrs ('<' :: start)

namespace Source

mutual
/-- The element that is written. -/
def element : Source → Element
  | ⟨tag, attrs, _, text, children, _⟩ => ⟨tag, attrs, text, elements children, ""⟩
def elements : List Source → List Element
  | [] => []
  | w :: ws => element w :: elements ws
end

mutual
/-- Start tag, text, children and closing tag, with nothing between them. -/
def write : Source → List Char
  | ⟨tag, _, start, text, children, _⟩ =>
    '<' :: start ++ (text.toList ++ writeAll children) ++ closingTag tag
def writeAll : List Source → List Char
  | [] => []
  | w :: ws => write w ++ writeAll ws
end

/-- What stands between the start tag and the closing tag. -/
def content (w : Source) : List Char := w.text.toList ++ writeAll w.children

mutual
/-- Everything below in document order. -/
def descendants : Source → List Source
  | ⟨_, _, _, _, children, _⟩ => listing children
def listing : List Source → List Source
  | [] => []
  | w :: ws => w :: (descendants w ++ listing ws)
end

/-- The start tag without its `<`, and the text. -/
def opening (w : Source) : List Char := w.start ++ w.text.toList

/-- The closing tag without its `<`. -/
def closing (w : Source) : List Char := '/' :: (w.tag.toList ++ ['>'])

mutual
def strokes : Source → List (List Char)
  | ⟨tag, attrs, start, text, children, hw⟩ =>
    opening ⟨tag, attrs, start, text, children, hw⟩ ::
      (strokesAll children ++ [closing ⟨tag, attrs, start, text, children, hw⟩])
def strokesAll : List Source → List (List Char)
  | [] => []
  | w :: ws => strokes w ++ strokesAll ws
end

/-- Neither the text nor a value contains `<` or `>`. -/
def Unmarked (w : Source) : Prop :=
  IsUnmarked w.text.toList ∧ ∀ a ∈ w.attrs.entries, IsUnmarked a.2.toList

/-- What the search relies on, whatever stands below. -/
structure Clean (w : Source) : Prop where
  proper : w.element.Proper
  unmarked : w.Unmarked

theorem Clean.isName {w : Source} (hw : w.Clean) : IsName w.tag := by
  cases w
  exact hw.proper.tag

variable {w v : Source} {ws : List Source}

theorem element_eq (w : Source) : w.element = ⟨w.tag, w.attrs, w.text, elements w.children, ""⟩ := by
  cases w; rfl

theorem descendants_eq (w : Source) : w.descendants = listing w.children := by
  cases w; rfl

theorem strokes_eq (w : Source) : w.strokes = w.opening :: (strokesAll w.children ++ [w.closing]) := by
  cases w; rfl

/-- The source of an element is its start tag, what is extracted, and its closing tag. -/
theorem write_eq (w : Source) : w.write = '<' :: w.start ++ w.content ++ closingTag w.tag := by
  cases w; rfl

mutual
theorem unite_strokes : (w : Source) → unite '<' w.strokes = w.write
  | ⟨tag, attrs, start, text, children, hw⟩ => by
    rw [strokes_eq, write_eq, unite_cons, unite_append, unite_strokesAll children]
    simp [opening, closing, closingTag, content, unite]

theorem unite_strokesAll : (ws : List Source) → unite '<' (strokesAll ws) = writeAll ws
  | [] => rfl
  | w :: ws => by
    rw [strokesAll, unite_append, unite_strokes w, unite_strokesAll ws, writeAll]
end

mutual
theorem descendants_element : (w : Source) → w.element.descendants = w.descendants.map element
  | ⟨_, _, _, _, children, _⟩ => listing_elements children

theorem listing_elements : (ws : List Source) →
    Element.listing (elements ws) = (listing ws).map element
  | [] => rfl
  | w :: ws => by
    simp [elements, Element.listing, listing, descendants_element w, listing_elements ws]
end

theorem proper_of_wellFormed (hw : ∀ e ∈ elements ws, e.WellFormed) (hv : v ∈ listing ws) :
    v.element.Proper := by
  have hmem : v.element ∈ Element.listing (elements ws) := by
    rw [listing_elements]
    exact List.mem_map_of_mem hv
  obtain ⟨e, he, hd⟩ := Element.mem_listing.mp hmem
  exact hw e he _ (by simpa using hd)

mutual
theorem mem_descendants_of_below {u : Source} : (w : Source) → v ∈ w.descendants →
    u ∈ v.descendants → u ∈ w.descendants
  | ⟨_, _, _, _, children, _⟩, hv, hu => mem_listing_of_below children hv hu

theorem mem_listing_of_below {u : Source} : (ws : List Source) → v ∈ listing ws →
    u ∈ v.descendants → u ∈ listing ws
  | [], hv, _ => by simp [listing] at hv
  | w :: ws, hv, hu => by
    simp only [listing, List.mem_cons, List.mem_append] at hv ⊢
    rcases hv with rfl | hv | hv
    · exact .inr (.inl hu)
    · exact .inr (.inl (mem_descendants_of_below w hv hu))
    · exact .inr (.inr (mem_listing_of_below ws hv hu))
end

/-! ## What is read back -/

mutual
theorem exists_writes : (w : Source) → (∀ v ∈ w :: w.descendants, v.element.Proper) →
    ∃ e, Writes w.element w.write e
  | ⟨tag, attrs, start, text, children, hs⟩, hw => by
    have hproper := hw _ List.mem_cons_self
    obtain ⟨es, hes⟩ := exists_writesAll children fun v hv => hw v (List.mem_cons_of_mem _ hv)
    by_cases hv : isVerbatim tag = true
    · have hnone : elements children = [] := (hproper.verbatim hv).1
      have hchildren : children = [] := by
        cases children with
        | nil => rfl
        | cons w ws => simp [elements] at hnone
      have hbody : text.toList ++ writeAll children = text.toList := by
        rw [hchildren, writeAll, List.append_nil]
      rw [write, hbody]
      exact ⟨_, .verbatim hv hs⟩
    · exact ⟨_, .plain (Bool.not_eq_true _ ▸ hv) hs .nil hes⟩

/-- This is one of the ways in which the elements may be written. -/
theorem exists_writesAll : (ws : List Source) → (∀ v ∈ listing ws, v.element.Proper) →
    ∃ es, WritesAll (elements ws) (writeAll ws) es
  | [], _ => ⟨[], .nil .nil⟩
  | w :: ws, hw => by
    obtain ⟨e, he⟩ := exists_writes w fun v hv => hw v (by
      rcases List.mem_cons.mp hv with rfl | hv <;> simp [listing, *])
    obtain ⟨es, hes⟩ := exists_writesAll ws fun v hv => hw v (by simp [listing, hv])
    exact ⟨e :: es, .cons .nil he hes⟩
end

mutual
theorem dropSource_element : (w : Source) → w.element.dropSource = w.element
  | ⟨_, _, _, _, children, _⟩ => congrArg (Element.mk _ _ _ · "") (dropSources_elements children)

theorem dropSources_elements : (ws : List Source) →
    Element.dropSources (elements ws) = elements ws
  | [] => rfl
  | w :: ws => by
    rw [elements, Element.dropSources, dropSource_element w, dropSources_elements ws]
end

/-- The elements that are written are read back. -/
theorem parse_writeAll (hw : ∀ e ∈ elements ws, e.WellFormed) :
    Element.dropSources (parse (String.ofList (writeAll ws))).children = elements ws := by
  obtain ⟨es, hes⟩ := exists_writesAll ws fun v hv => proper_of_wellFormed hw hv
  rw [parse_written hes hw, hes.dropSources, dropSources_elements]

/-! ## The strokes of an element among all -/

def IsTagOf (s : List Char) (w : Source) : Prop := s = w.opening ∨ s = w.closing

mutual
/-- The strokes of what is written are the tags in it. -/
theorem mem_strokes {s : List Char} : (w : Source) →
    (s ∈ w.strokes ↔ ∃ v ∈ w :: w.descendants, IsTagOf s v)
  | ⟨tag, attrs, start, text, children, hw⟩ => by
    rw [strokes, descendants, List.mem_cons, List.mem_append, mem_strokesAll children,
      List.mem_singleton]
    simp only [List.mem_cons, exists_eq_or_imp]
    rw [or_comm (b := s = closing _), ← or_assoc]
    rfl

theorem mem_strokesAll {s : List Char} : (ws : List Source) →
    (s ∈ strokesAll ws ↔ ∃ v ∈ listing ws, IsTagOf s v)
  | [] => by simp [strokesAll, listing]
  | w :: ws => by
    rw [strokesAll, listing, ← List.cons_append, List.mem_append, mem_strokes w, mem_strokesAll ws]
    simp only [List.mem_append, or_and_right, exists_or]
end

/-- The strokes before those of an element are tags of the elements before it, and all of these
elements start there. -/
structure Splits (all : List (List Char)) (earlier : List Source) (w : Source)
    (before after : List (List Char)) : Prop where
  eq : all = before ++ w.strokes ++ after
  isTag : ∀ s ∈ before, ∃ v ∈ earlier, IsTagOf s v
  opening : ∀ v ∈ earlier, v.opening ∈ before

/-- An element of a list stands in one of the two parts of the list. -/
theorem append_eq_append_cons {α : Type} {a b e l : List α} {x : α} (h : a ++ b = e ++ x :: l) :
    (∃ r, e = a ++ r ∧ b = r ++ x :: l) ∨ ∃ r, a = e ++ x :: r ∧ l = r ++ b := by
  rcases List.append_eq_append_iff.mp h with ⟨r, he, hb⟩ | ⟨r, ha, hx⟩
  · exact .inl ⟨r, he, hb⟩
  · cases r with
    | nil => exact .inl ⟨[], by simpa using ha.symm, by simpa using hx.symm⟩
    | cons y r =>
      obtain ⟨rfl, rfl⟩ := List.cons.inj hx
      exact .inr ⟨r, ha, rfl⟩

namespace Splits

variable {earlier : List Source} {before after : List (List Char)}

/-- The element stands after all of another one. -/
theorem beside (h : Splits (strokesAll ws) earlier w before after) (v : Source) :
    Splits (strokesAll (v :: ws)) (v :: v.descendants ++ earlier) w (v.strokes ++ before) after where
  eq := by simp [strokesAll, h.eq]
  isTag s hs := by
    rcases List.mem_append.mp hs with hs | hs
    · obtain ⟨u, hu, htag⟩ := (mem_strokes v).mp hs
      exact ⟨u, List.mem_append_left earlier hu, htag⟩
    · obtain ⟨u, hu, htag⟩ := h.isTag s hs
      exact ⟨u, List.mem_append_right _ hu, htag⟩
  opening u hu := by
    rcases List.mem_append.mp hu with hu | hu
    · exact List.mem_append_left _ ((mem_strokes v).mpr ⟨u, hu, .inl rfl⟩)
    · exact List.mem_append_right _ (h.opening u hu)

/-- The element stands below another one. -/
theorem inside (h : Splits (strokesAll v.children) earlier w before after) (ws : List Source) :
    Splits (strokesAll (v :: ws)) (v :: earlier) w (v.opening :: before)
      (after ++ v.closing :: strokesAll ws) where
  eq := by simp [strokesAll, strokes_eq, h.eq]
  isTag s hs := by
    rcases List.mem_cons.mp hs with rfl | hs
    · exact ⟨v, List.mem_cons_self, .inl rfl⟩
    · obtain ⟨u, hu, htag⟩ := h.isTag s hs
      exact ⟨u, List.mem_cons_of_mem v hu, htag⟩
  opening u hu := by
    rcases List.mem_cons.mp hu with rfl | hu
    · exact List.mem_cons_self
    · exact List.mem_cons_of_mem _ (h.opening u hu)

end Splits

mutual
theorem exists_splits_below {earlier later : List Source} : (v : Source) →
    v.descendants = earlier ++ w :: later →
      ∃ before after, Splits (strokesAll v.children) earlier w before after
  | ⟨_, _, _, _, children, _⟩, h => exists_splits children h

/-- Every place in document order is a place in the text. -/
theorem exists_splits {earlier later : List Source} : (ws : List Source) →
    listing ws = earlier ++ w :: later →
      ∃ before after, Splits (strokesAll ws) earlier w before after
  | [], h => by simp [listing] at h
  | v :: ws, h => by
    cases earlier with
    | nil =>
      cases h
      exact ⟨[], strokesAll ws, rfl, by simp, by simp⟩
    | cons u earlier =>
      rw [listing, List.cons_append, List.cons.injEq] at h
      obtain ⟨rfl, h⟩ := h
      rcases append_eq_append_cons h with ⟨rest, rfl, hrest⟩ | ⟨rest, hbelow, -⟩
      · obtain ⟨before, after, hsplit⟩ := exists_splits ws hrest
        exact ⟨_, _, hsplit.beside v⟩
      · obtain ⟨before, after, hsplit⟩ := exists_splits_below v hbelow
        exact ⟨_, _, hsplit.inside ws⟩
end

/-! ## What the strokes begin with -/

theorem closing_eq (w : Source) : '<' :: w.closing = closingTag w.tag := rfl

theorem closing_no_start (ht : IsName w.tag) : '<' ∉ w.closing := by
  intro h
  simp only [closing, List.mem_cons, List.mem_append] at h
  rcases h with h | h | h
  · exact absurd h (by decide)
  · exact ht.isUnmarked.1 h
  · exact absurd h (by decide)

theorem not_name_prefix_closing {t : String} (ht : IsName t) (v : Source) :
    ¬ t.toList <+: v.closing := by
  obtain ⟨c, r, htag, hc⟩ := ht.exists_cons
  rw [htag, closing, List.cons_prefix_cons]
  rintro ⟨rfl, -⟩
  exact absurd hc (by decide)

/-- Only the closing tag of the same name begins like a closing tag. -/
theorem closing_prefix_closing (hw : IsName w.tag) (hv : IsName v.tag)
    (h : w.closing <+: v.closing) : w.tag = v.tag := by
  obtain ⟨r, hr⟩ := h
  simp only [closing, List.cons_append, List.append_assoc, List.cons.injEq, true_and] at hr
  exact String.toList_inj.mp (first_cut hw.isUnmarked.2 hv.isUnmarked.2 hr).1

namespace Clean

variable (hv : v.Clean)

include hv

theorem opening_shape : ∃ u, v.opening = v.tag.toList ++ (u ++ '>' :: v.text.toList) ∧
    IsUnmarked u ∧ ∀ c, (u ++ ['>']).head? = some c → isNameChar c = false := by
  have hattrs : ∀ a ∈ v.attrs.entries, IsName a.1 ∧ IsUnmarked a.2.toList := by
    intro a ha
    have hproper := hv.proper.attrs a (by rw [element_eq]; exact ha)
    exact ⟨hproper.1, hv.unmarked.2 a ha⟩
  obtain ⟨u, hstart, hu, hhead⟩ := v.written.shape hattrs
  exact ⟨u, by simp [opening, hstart], hu, hhead⟩

theorem opening_no_start : '<' ∉ v.opening := by
  obtain ⟨u, hopening, hu, -⟩ := hv.opening_shape
  simp [hopening, hv.isName.isUnmarked.1, hu.1, hv.unmarked.1.1]

/-- A start tag begins with a name if its own name does. -/
theorem name_prefix_opening_iff {t : String} (ht : IsName t) :
    t.toList <+: v.opening ↔ t.toList <+: v.tag.toList := by
  obtain ⟨u, hopening, -, hhead⟩ := hv.opening_shape
  rw [hopening]
  apply prefix_append_iff (p := (isNameChar · = true)) ht.isNameChar
  intro c hc
  rw [hhead c (by cases u <;> simpa using hc)]
  decide

theorem not_closing_prefix_opening (w : Source) : ¬ w.closing <+: v.opening := by
  obtain ⟨u, hopening, -, -⟩ := hv.opening_shape
  obtain ⟨c, r, hname, hc⟩ := hv.isName.exists_cons
  rw [hopening, hname, closing, List.cons_append, List.cons_prefix_cons]
  rintro ⟨rfl, -⟩
  exact absurd hc (by decide)

/-- The first `>` from the name on ends the start tag. -/
theorem cut?_opening (r : List Char) :
    ∃ s, cut? ['>'] (v.opening ++ r) = some (s, v.text.toList ++ r) := by
  obtain ⟨u, hopening, hu, -⟩ := hv.opening_shape
  refine ⟨v.tag.toList ++ u, cut?_singleton.mpr ⟨?_, ?_⟩⟩
  · simp [hv.isName.isUnmarked.2, hu.2]
  · simp [hopening]

/-- The search for a closing tag passes the tags of an element with another name. -/
theorem passes (hw : IsName w.tag) (hne : v.tag ≠ w.tag) {s : List Char} (hs : IsTagOf s v) :
    '<' ∉ s ∧ ¬ w.closing <+: s := by
  rcases hs with rfl | rfl
  · exact ⟨hv.opening_no_start, hv.not_closing_prefix_opening w⟩
  · exact ⟨closing_no_start hv.isName, fun h => hne (closing_prefix_closing hw hv.isName h).symm⟩

end Clean

end Source

/-! ## Extracting -/

theorem sourceOf_eq {tag : String} {s r t inner : List Char}
    (hopen : ∃ a, cut? ('<' :: tag.toList) s = some (a, r))
    (hend : ∃ a, cut? ['>'] (tag.toList ++ r) = some (a, t))
    (hclose : ∃ a, cut? (closingTag tag) t = some (inner, a)) :
    sourceOf (String.ofList s) tag = String.ofList inner := by
  obtain ⟨a, ha⟩ := hopen
  obtain ⟨b, hb⟩ := hend
  obtain ⟨c, hc⟩ := hclose
  have hc' : cut? ('<' :: '/' :: (tag.toList ++ ['>'])) t = some (inner, c) := hc
  simp [sourceOf, ha, hb, hc']

namespace Source

variable {w v : Source} {before between after : List (List Char)}

/-- From the first start tag that begins with the name, the search goes to the first closing tag
with the name. -/
theorem sourceOf_unite (hw : IsName w.tag) (hv : v.Clean) (hname : w.tag.toList <+: v.tag.toList)
    (hbefore : ∀ s ∈ before, '<' ∉ s ∧ ¬ w.tag.toList <+: s)
    (hbetween : ∀ s ∈ between, '<' ∉ s ∧ ¬ w.closing <+: s) :
    sourceOf (String.ofList (unite '<' (before ++ v.opening :: (between ++ w.closing :: after))))
      w.tag = String.ofList (v.text.toList ++ unite '<' between) := by
  obtain ⟨y, hy⟩ := (hv.name_prefix_opening_iff hw).mpr hname
  apply sourceOf_eq (r := y ++ unite '<' (between ++ w.closing :: after))
    (t := v.text.toList ++ unite '<' (between ++ w.closing :: after))
  · refine ⟨unite '<' before, ?_⟩
    rw [unite_append, unite_cons, ← hy, List.append_assoc]
    apply cut?_append_head hw.isUnmarked.1
    rw [infix_unite_iff hw.isUnmarked.1 fun s hs => (hbefore s hs).1]
    rintro ⟨s, hs, hprefix⟩
    exact (hbefore s hs).2 hprefix
  · rw [← List.append_assoc, hy]
    exact hv.cut?_opening _
  · refine ⟨unite '<' after, ?_⟩
    rw [unite_append, unite_cons, ← List.append_assoc, ← closing_eq]
    apply cut?_append_head (closing_no_start hw)
    rw [infix_append_iff hv.unmarked.1.1,
      infix_unite_iff (closing_no_start hw) fun s hs => (hbetween s hs).1]
    rintro ⟨s, hs, hprefix⟩
    exact (hbetween s hs).2 hprefix

variable {ws earlier later : List Source}

section

variable (hws : ∀ v ∈ listing ws, v.Clean) (horder : listing ws = earlier ++ w :: later)
  (hfirst : ∀ v ∈ earlier, v.tag ≠ w.tag) (hbelow : ∀ v ∈ w.descendants, v.tag ≠ w.tag)

include hws horder hfirst hbelow

/-- The text around the first element with a name: no tag of the same name is closed before it
ends. -/
theorem exists_first : ∃ before after, Splits (strokesAll ws) earlier w before after ∧
    writeAll ws =
      unite '<' (before ++ w.opening :: (strokesAll w.children ++ w.closing :: after)) ∧
    (∀ s ∈ before, '<' ∉ s ∧ ¬ w.closing <+: s) ∧
    ∀ s ∈ strokesAll w.children, '<' ∉ s ∧ ¬ w.closing <+: s := by
  have hmem : w ∈ listing ws := by simp [horder]
  have hname := (hws w hmem).isName
  obtain ⟨before, after, hsplit⟩ := exists_splits ws horder
  refine ⟨before, after, hsplit, ?_, fun s hs => ?_, fun s hs => ?_⟩
  · rw [← unite_strokesAll, hsplit.eq, strokes_eq]
    simp
  · obtain ⟨v, hv, htag⟩ := hsplit.isTag s hs
    exact (hws v (by simp [horder, hv])).passes hname (hfirst v hv) htag
  · obtain ⟨v, hv, htag⟩ := (mem_strokesAll _).mp hs
    rw [← descendants_eq] at hv
    exact (hws v (mem_listing_of_below ws hmem hv)).passes hname (hbelow v hv) htag

/-- The search finds the first element with the name, if no name before it begins so. -/
theorem sourceOf_first (hnone : ∀ v ∈ earlier, ¬ w.tag.toList <+: v.tag.toList) :
    sourceOf (String.ofList (writeAll ws)) w.tag = String.ofList w.content := by
  obtain ⟨before, after, hsplit, htext, hbefore, hchildren⟩ :=
    exists_first hws horder hfirst hbelow
  have hw : w.Clean := hws w (by simp [horder])
  have hstart : ∀ s ∈ before, '<' ∉ s ∧ ¬ w.tag.toList <+: s := by
    intro s hs
    obtain ⟨v, hv, htag⟩ := hsplit.isTag s hs
    refine ⟨(hbefore s hs).1, ?_⟩
    rcases htag with rfl | rfl
    · rw [(hws v (by simp [horder, hv])).name_prefix_opening_iff hw.isName]
      exact hnone v hv
    · exact not_name_prefix_closing hw.isName v
  rw [htext, sourceOf_unite hw.isName hw List.prefix_rfl hstart hchildren, unite_strokesAll,
    content]

/-- The search takes an element whose name only begins so for the one with the name. -/
theorem sourceOf_longer (hsome : ∃ v ∈ earlier, w.tag.toList <+: v.tag.toList) :
    ∃ front, sourceOf (String.ofList (writeAll ws)) w.tag =
      String.ofList (front ++ '<' :: w.start ++ w.content) := by
  obtain ⟨before, after, hsplit, htext, hbefore, hchildren⟩ :=
    exists_first hws horder hfirst hbelow
  have hw : w.Clean := hws w (by simp [horder])
  have hhit : (before.find? (w.tag.toList <+: ·)).isSome := by
    obtain ⟨v, hv, hprefix⟩ := hsome
    have hclean := hws v (by simp [horder, hv])
    simp only [List.find?_isSome, decide_eq_true_eq]
    exact ⟨v.opening, hsplit.opening v hv, (hclean.name_prefix_opening_iff hw.isName).mpr hprefix⟩
  obtain ⟨s, hfound⟩ := Option.isSome_iff_exists.mp hhit
  obtain ⟨hs, skipped, between, hparts, hskipped⟩ := List.find?_eq_some_iff_append.mp hfound
  simp only [decide_eq_true_eq, Bool.not_eq_true', decide_eq_false_iff_not] at hs hskipped
  have hopening : ∃ v ∈ earlier, s = v.opening := by
    obtain ⟨v, hv, rfl | rfl⟩ := hsplit.isTag s (by simp [hparts])
    · exact ⟨v, hv, rfl⟩
    · exact absurd hs (not_name_prefix_closing hw.isName v)
  obtain ⟨v, hv, rfl⟩ := hopening
  have hclean : v.Clean := hws v (by simp [horder, hv])
  have hname : w.tag.toList <+: v.tag.toList :=
    (hclean.name_prefix_opening_iff hw.isName).mp hs
  have hpassed : ∀ s ∈ between ++ w.opening :: strokesAll w.children,
      '<' ∉ s ∧ ¬ w.closing <+: s := by
    intro s hs
    rw [List.mem_append, List.mem_cons] at hs
    rcases hs with hs | rfl | hs
    · exact hbefore s (by simp [hparts, hs])
    · exact ⟨hw.opening_no_start, hw.not_closing_prefix_opening w⟩
    · exact hchildren s hs
  have hall : before ++ w.opening :: (strokesAll w.children ++ w.closing :: after) =
      skipped ++ v.opening :: ((between ++ w.opening :: strokesAll w.children) ++
        w.closing :: after) := by
    simp [hparts]
  refine ⟨v.text.toList ++ unite '<' between, ?_⟩
  rw [htext, hall, sourceOf_unite hw.isName hclean hname
    (fun s hs => ⟨(hbefore s (by simp [hparts, hs])).1, hskipped s hs⟩) hpassed,
    unite_append, unite_cons, unite_strokesAll]
  simp [opening, content]

end

theorem clean_of_wellFormed (hw : ∀ e ∈ elements ws, e.WellFormed)
    (hu : ∀ v ∈ listing ws, v.Unmarked) : ∀ v ∈ listing ws, v.Clean :=
  fun v hv => ⟨proper_of_wellFormed hw hv, hu v hv⟩

/-- Of written elements that are read back, the first one with a name is extracted exactly if no
name before it begins with that name and goes on. Otherwise its own start tag and more before it are
extracted too. -/
theorem sourceOf_content_iff (hw : ∀ e ∈ elements ws, e.WellFormed)
    (hu : ∀ v ∈ listing ws, v.Unmarked) (horder : listing ws = earlier ++ w :: later)
    (hfirst : ∀ v ∈ earlier, v.tag ≠ w.tag) (hbelow : ∀ v ∈ w.descendants, v.tag ≠ w.tag) :
    Element.dropSources (parse (String.ofList (writeAll ws))).children = elements ws ∧
    (sourceOf (String.ofList (writeAll ws)) w.tag = String.ofList w.content ↔
      ∀ v ∈ earlier, ¬ w.tag.toList <+: v.tag.toList) ∧
    ((∃ v ∈ earlier, w.tag.toList <+: v.tag.toList) →
      ∃ front, sourceOf (String.ofList (writeAll ws)) w.tag =
        String.ofList (front ++ '<' :: w.start ++ w.content)) := by
  have hclean := clean_of_wellFormed hw hu
  have hlonger := sourceOf_longer hclean horder hfirst hbelow
  refine ⟨parse_writeAll hw, ⟨fun hfound v hv hprefix => ?_, ?_⟩, hlonger⟩
  · obtain ⟨front, hfront⟩ := hlonger ⟨v, hv, hprefix⟩
    have hsame := congrArg List.length (String.ofList_inj.mp (hfront.symm.trans hfound))
    simp only [List.cons_append, List.append_assoc, List.length_append, List.length_cons] at hsame
    omega
  · exact sourceOf_first hclean horder hfirst hbelow

/-! ## Elements without attributes -/

theorem writesStart_bare (tag : String) :
    WritesStart tag .empty ('<' :: (tag.toList ++ ['>'])) := by
  simpa using @WritesStart.mk tag .empty [] [] [] (List.Perm.refl _) .nil (by simp [IsBlanks])

def bare (tag text : String) (children : List Source) : Source :=
  ⟨tag, .empty, tag.toList ++ ['>'], text, children, writesStart_bare tag⟩

theorem clean_bare {tag text : String} {children : List Source} (hname : IsName tag)
    (hplain : isVerbatim tag = false) (htext : IsText text) (hu : IsUnmarked text.toList) :
    (bare tag text children).Clean where
  proper :=
    { tag := hname
      attrs := by simp [bare, element, NameTable.empty]
      text := fun _ => htext
      verbatim := fun h => absurd h (by simp [bare, element, hplain]) }
  unmarked := ⟨hu, by simp [bare, NameTable.empty]⟩

theorem wellFormed_of_clean (hw : ∀ v ∈ listing ws, v.Clean) : ∀ e ∈ elements ws, e.WellFormed := by
  intro e he d hd
  have hmem : d ∈ Element.listing (elements ws) :=
    Element.mem_listing.mpr ⟨e, he, List.mem_cons.mp hd⟩
  rw [listing_elements, List.mem_map] at hmem
  obtain ⟨v, hv, rfl⟩ := hmem
  exact (hw v hv).proper

/-- A longer name after the element does not matter. -/
theorem sourceOf_content_before_longer :
    sourceOf "<ui><page></page><tab>one<b></b></tab><tabs></tabs></ui>" "tab" = "one<b></b>" := by
  let tab := bare "tab" "one" [bare "b" "" []]
  let ui := bare "ui" "" [bare "page" "" [], tab, bare "tabs" "" []]
  have horder : listing [ui] =
      [ui, bare "page" "" []] ++ tab :: [bare "b" "" [], bare "tabs" "" []] := rfl
  have hclean : ∀ v ∈ listing [ui], v.Clean := by
    simp only [horder, List.cons_append, List.nil_append, List.forall_mem_cons]
    refine ⟨?_, ?_, ?_, ?_, ?_, by simp⟩ <;>
      exact clean_bare ⟨by decide, List.all_eq_true.mp (by decide)⟩ (by decide)
        ⟨by decide, by decide⟩ ⟨by decide, by decide⟩
  have htext : "<ui><page></page><tab>one<b></b></tab><tabs></tabs></ui>" =
      String.ofList (writeAll [ui]) := by decide +kernel
  have hcontent : "one<b></b>" = String.ofList tab.content := by decide +kernel
  have hiff := (sourceOf_content_iff (wellFormed_of_clean hclean)
    (fun v hv => (hclean v hv).unmarked) horder (by simp [ui, tab, bare])
    (by simp [tab, bare, descendants, listing])).2.1
  rw [htext, hcontent]
  exact hiff.mpr (by simp [ui, tab, bare])

/-- The longer name of an element before it is taken for its own. -/
theorem not_sourceOf_content :
    ¬ ∀ (ws earlier later : List Source) (w : Source), (∀ e ∈ elements ws, e.WellFormed) →
      (∀ v ∈ listing ws, v.Unmarked) → listing ws = earlier ++ w :: later →
      (∀ v ∈ earlier, v.tag ≠ w.tag) → (∀ v ∈ w.descendants, v.tag ≠ w.tag) →
      sourceOf (String.ofList (writeAll ws)) w.tag = String.ofList w.content := by
  intro hall
  let tabs := bare "tabs" "" []
  let tab := bare "tab" "x" []
  have hclean : ∀ v ∈ listing [tabs, tab], v.Clean := by
    simp only [show listing [tabs, tab] = [tabs, tab] from rfl, List.forall_mem_cons]
    refine ⟨?_, ?_, by simp⟩ <;>
      exact clean_bare ⟨by decide, List.all_eq_true.mp (by decide)⟩ (by decide)
        ⟨by decide, by decide⟩ ⟨by decide, by decide⟩
  have hfound := hall [tabs, tab] [tabs] [] tab (wellFormed_of_clean hclean)
    (fun v hv => (hclean v hv).unmarked) rfl (by simp [tabs, tab, bare])
    (by simp [tab, bare, descendants, listing])
  exact absurd hfound (by decide +kernel)

end Source

end Markup
end ScreenMarkup
