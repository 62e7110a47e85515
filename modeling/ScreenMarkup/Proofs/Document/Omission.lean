import Mathlib.Data.List.Forall2
import Mathlib.Data.Option.Basic
import ScreenMarkup.Document.Head
import ScreenMarkup.Proofs.Document.Declarations

/-!
# Documents with canvases left out

The passes of a rendering reach the elements of a document by levels: outside
of pages they search for groups and pages, of a group they take the pages, and
on a page they build widgets, down into tabs. A canvas may be left out where
widgets are built. The head of a document and its layout do not notice it.
-/

set_option autoImplicit false

namespace ScreenMarkup

/-- What the children of an element are to a rendering. -/
inductive Level where
  /-- They may be anything. -/
  | anything
  /-- They are searched for groups and pages. -/
  | searched
  /-- They are the pages of a group. -/
  | pages
  /-- They are built as widgets. -/
  | content
  /-- They are built as tabs. -/
  | tabs
deriving DecidableEq

namespace Level

/-- What an element with a tag has below it. -/
def below? (l : Level) (tag : String) : Option Level :=
  match l with
  | anything => some anything
  | searched => if tag = "group" then some pages else if tag = "page" then some content
    else some searched
  | pages => if tag = "page" then some content else none
  | content => if tag = "tabs" then some tabs else none
  | tabs => if tag = "tab" then some content else none

/-- Elements may be left out here. -/
def omits : Level → Bool
  | anything | content => true
  | _ => false

end Level

/-- `es'` is `es` without some elements that satisfy `p`. -/
inductive Omits (p : Element → Prop) : Level → List Element → List Element → Prop where
  | nil (l : Level) : Omits p l [] []
  | keep {l : Level} {es es' : List Element} (e : Element) (hes : Omits p l es es') :
      Omits p l (e :: es) (e :: es')
  | leave {l : Level} {e : Element} {es es' : List Element} (hl : l.omits = true) (he : p e)
      (hes : Omits p l es es') : Omits p l (e :: es) es'
  | inside {l m : Level} {e : Element} {cs es es' : List Element} (hm : l.below? e.tag = some m)
      (he : Omits p m e.children cs) (hes : Omits p l es es') :
      Omits p l (e :: es) ({ e with children := cs } :: es')

/-- Some of the children of an element, or of their children, are left out. -/
def Element.Sheds (p : Element → Prop) (l : Level) (e e' : Element) : Prop :=
  ∃ cs, Omits p l e.children cs ∧ e' = { e with children := cs }

/-- The first child with a tag is changed, or the element itself if it has no such child. -/
inductive Element.AtFirst (tag : String) (R : Element → Element → Prop) :
    Element → Element → Prop where
  | self {e e' : Element} (he : e.find? tag = none) (hr : R e e') : AtFirst tag R e e'
  | child {e c c' : Element} {before after : List Element} (he : e.children = before ++ c :: after)
      (hbefore : ∀ b ∈ before, b.tag ≠ tag) (hc : c.tag = tag) (hr : R c c') :
      AtFirst tag R e { e with children := before ++ c' :: after }

variable {p : Element → Prop} {l : Level} {e e' : Element} {es es' : List Element} {t : String}

namespace Omits

theorem refl (l : Level) (es : List Element) : Omits p l es es := by
  induction es with
  | nil => exact .nil l
  | cons e es ih => exact .keep e ih

theorem widen (h : Omits p l es es') : Omits p .anything es es' := by
  induction h with
  | nil => exact .nil _
  | keep e _ ih => exact .keep e ih
  | leave _ he _ ih => exact .leave rfl he ih
  | inside _ _ _ ihc ih => exact .inside rfl ihc ih

theorem append (h : Omits p l es es') (before : List Element) :
    Omits p l (before ++ es) (before ++ es') := by
  induction before with
  | nil => exact h
  | cons b before ih => exact .keep b ih

end Omits

theorem Element.Sheds.refl (l : Level) (e : Element) : e.Sheds p l e := by
  obtain ⟨tag, attrs, text, children, inner⟩ := e
  exact ⟨children, Omits.refl l children, rfl⟩

namespace Omits

/-! ## What is found -/

/-- What a search finds is found again. -/
theorem find? (h : Omits p l es es') (hp : ∀ e, p e → e.tag ≠ t) :
    Option.Rel (Element.Sheds p .anything) (es.find? fun c => c.tag = t)
      (es'.find? fun c => c.tag = t) := by
  induction h with
  | nil => exact .none
  | keep e _ ih =>
    rw [List.find?_cons, List.find?_cons]
    split
    · exact .some (Element.Sheds.refl _ e)
    · exact ih
  | leave _ he _ ih =>
    rw [List.find?_cons_of_neg (by simpa using hp _ he)]
    exact ih
  | @inside l m e cs es es' _ he _ _ ih =>
    rw [List.find?_cons, List.find?_cons]
    show Option.Rel _ (match decide (e.tag = t) with | true => some e | false => _)
      (match decide (e.tag = t) with | true => some { e with children := cs } | false => _)
    split
    · exact .some ⟨cs, he.widen, rfl⟩
    · exact ih

/-- What does not look at children tells nothing of those that are left out. -/
theorem filterMap {α : Type} (h : Omits p l es es') {f : Element → Option α}
    (hp : ∀ e, p e → f e = none) (hf : ∀ e cs, f { e with children := cs } = f e) :
    es'.filterMap f = es.filterMap f := by
  induction h with
  | nil => rfl
  | keep e _ ih => rw [List.filterMap_cons, List.filterMap_cons, ih]
  | leave _ he _ ih => rw [List.filterMap_cons_none (hp _ he), ih]
  | inside _ _ _ _ ih => rw [List.filterMap_cons, List.filterMap_cons, ih, hf]

end Omits

namespace Element.Sheds

theorem tag (h : e.Sheds p l e') : e'.tag = e.tag := by
  obtain ⟨cs, -, rfl⟩ := h
  rfl

theorem attrs (h : e.Sheds p l e') : e'.attrs = e.attrs := by
  obtain ⟨cs, -, rfl⟩ := h
  rfl

theorem text (h : e.Sheds p l e') : e'.text = e.text := by
  obtain ⟨cs, -, rfl⟩ := h
  rfl

theorem attr (h : e.Sheds p l e') (name : String) : e'.attr name = e.attr name := by
  obtain ⟨cs, -, rfl⟩ := h
  rfl

theorem widen (h : e.Sheds p l e') : e.Sheds p .anything e' := by
  obtain ⟨cs, hcs, rfl⟩ := h
  exact ⟨cs, hcs.widen, rfl⟩

/-- A child that is found is found again, and none is found instead of none. -/
theorem find? (h : e.Sheds p l e') (hp : ∀ e, p e → e.tag ≠ t) :
    (e.find? t = none ∧ e'.find? t = none) ∨
      ∃ c c', e.find? t = some c ∧ e'.find? t = some c' ∧ c.Sheds p .anything c' := by
  obtain ⟨cs, hcs, rfl⟩ := h
  have hfound := hcs.find? hp
  show (e.children.find? (fun c => c.tag = t) = none ∧ cs.find? (fun c => c.tag = t) = none) ∨
    ∃ c c', e.children.find? (fun c => c.tag = t) = some c ∧
      cs.find? (fun c => c.tag = t) = some c' ∧ c.Sheds p .anything c'
  generalize e.children.find? (fun c => c.tag = t) = found at hfound
  generalize cs.find? (fun c => c.tag = t) = found' at hfound
  cases hfound with
  | none => exact .inl ⟨rfl, rfl⟩
  | some hc => exact .inr ⟨_, _, rfl, rfl, hc⟩

theorem filterMap {α : Type} (h : e.Sheds p l e') {f : Element → Option α}
    (hp : ∀ e, p e → f e = none) (hf : ∀ e cs, f { e with children := cs } = f e) :
    e'.children.filterMap f = e.children.filterMap f := by
  obtain ⟨cs, hcs, rfl⟩ := h
  exact hcs.filterMap hp hf

/-- A child that is found is found with less in it, and else it is the element itself that has less
in it. -/
theorem found (h : e.Sheds p .anything e') (hp : ∀ e, p e → e.tag ≠ t) :
    ((e.find? t).getD e).Sheds p .anything ((e'.find? t).getD e') := by
  rcases h.find? hp with ⟨he, he'⟩ | ⟨c, c', he, he', hc⟩
  · rw [he, he']
    exact h
  · rw [he, he']
    exact hc

end Element.Sheds

/-! ## The head -/

namespace Head

theorem declared?_eq_none (he : e.tag = "canvas") : declared? e = none := by
  have hunknown : VarType.isKnown e.tag = false := by
    rw [he]
    decide
  rw [declared?, if_pos (.inr (by rw [hunknown]; rfl))]

section Sheds

variable (h : e.Sheds p l e') (hp : ∀ e, p e → e.tag = "canvas")

include hp in
/-- No section is a canvas. -/
theorem tag_ne (ht : "canvas" ≠ t) : ∀ e, p e → e.tag ≠ t := fun e he => hp e he ▸ ht

include h in
theorem withMeta_sheds (head : Head) (iconDir : String) :
    withMeta head e' iconDir = withMeta head e iconDir := by
  simp only [withMeta, h.tag, Element.given?, Element.attr?, h.attrs, h.attr]

include h hp

theorem timers_sheds :
    (e'.findAll "timer").filterMap timer? = (e.findAll "timer").filterMap timer? := by
  simp only [Element.findAll, List.filterMap_filter]
  refine h.filterMap (fun c hc => if_neg ?_) fun c cs => rfl
  simpa using tag_ne hp (by decide) c hc

theorem withScript_sheds (head : Head) : withScript head e' = withScript head e := by
  unfold withScript
  rcases h.find? (tag_ne (t := "script") hp (by decide)) with ⟨hf, hf'⟩ | ⟨c, c', hf, hf', hc⟩
  · rw [hf, hf']
  · simp only [hf, hf', Element.attrD, Element.attr?, hc.attrs, hc.text]

/-- An attribute of a child is read alike. -/
theorem hint_sheds {α : Type} (ht : "canvas" ≠ t) (name : String) (f : String → α) :
    (e'.find? t).map (fun c => f (c.attr name)) = (e.find? t).map fun c => f (c.attr name) := by
  rcases h.find? (tag_ne hp ht) with ⟨hf, hf'⟩ | ⟨c, c', hf, hf', hc⟩
  · rw [hf, hf']
  · rw [hf, hf', Option.map_some, Option.map_some, hc.attr]

theorem withConfig_sheds (head : Head) : withConfig head e' = withConfig head e := by
  unfold withConfig
  rcases h.find? (tag_ne (t := "config") hp (by decide)) with ⟨hf, hf'⟩ | ⟨c, c', hf, hf', hc⟩
  · rw [hf, hf']
  · have hdisplay := hint_sheds hc hp (t := "display") (by decide) "buffer" DisplayBuffer.ofKeyword
    have hnetwork := hint_sheds hc hp (t := "network") (by decide) "mode" id
    simp only [id_eq] at hnetwork
    simp only [hf, hf', hdisplay, hnetwork]

theorem withDefaultPage_sheds (head : Head) : withDefaultPage head e' = withDefaultPage head e := by
  unfold withDefaultPage
  rcases h.find? (tag_ne (t := "ui") hp (by decide)) with ⟨hf, hf'⟩ | ⟨c, c', hf, hf', hc⟩
  · rw [hf, hf']
  · simp only [hf, hf', hc.attr]

theorem declarations_sheds : declarations e' = declarations e := by
  unfold declarations
  rcases h.find? (tag_ne (t := "state") hp (by decide)) with ⟨hf, hf'⟩ | ⟨c, c', hf, hf', hc⟩
  · rw [hf, hf']
  · simp only [hf, hf']
    exact hc.filterMap (fun d hd => declared?_eq_none (hp d hd)) fun d cs => rfl

theorem style_sheds (sheet : Stylesheet) (iconDir : String) :
    (read e' {} sheet iconDir).2.2 = (read e {} sheet iconDir).2.2 := by
  unfold read
  dsimp only
  rcases h.find? (tag_ne (t := "style") hp (by decide)) with ⟨hf, hf'⟩ | ⟨c, c', hf, hf', hc⟩
  · rw [hf, hf']
  · simp only [hf, hf', hc.text]

/-- The sections of a head are not canvases, and neither is what is declared in them. -/
theorem read_sheds (store : Store) (sheet : Stylesheet) (iconDir : String) :
    read e' store sheet iconDir = read e store sheet iconDir := by
  have hhead : (read e' {} sheet iconDir).1 = (read e {} sheet iconDir).1 := by
    simp only [read, withMeta_sheds h, timers_sheds h hp, withScript_sheds h hp,
      withConfig_sheds h hp, withDefaultPage_sheds h hp]
  rw [read_eq, read_eq e, hhead, style_sheds h hp, declarations_sheds h hp]

end Sheds

end Head

/-! ## The layout -/

namespace Layout

theorem ofElement_eq (e : Element) : ofElement e =
    if e.tag = "group" then { groups := [e] }
    else if e.tag = "page" then { pages := [e] }
    else ofElements e.children := by
  cases e
  rfl

/-- The groups and the pages of both documents correspond. -/
structure Sheds (p : Element → Prop) (a b : Layout) : Prop where
  groups : List.Forall₂ (Element.Sheds p .pages) a.groups b.groups
  pages : List.Forall₂ (Element.Sheds p .content) a.pages b.pages

theorem Sheds.append {a b c d : Layout} (h₁ : Sheds p a b) (h₂ : Sheds p c d) :
    Sheds p (a.append c) (b.append d) :=
  ⟨List.rel_append h₁.groups h₂.groups, List.rel_append h₁.pages h₂.pages⟩

theorem Sheds.refl (a : Layout) : Sheds p a a :=
  ⟨List.forall₂_same.mpr fun g _ => Element.Sheds.refl _ g,
    List.forall₂_same.mpr fun g _ => Element.Sheds.refl _ g⟩

/-- Nothing is left out but below pages. -/
theorem sheds_ofElements (h : Omits p .searched es es') :
    Sheds p (ofElements es) (ofElements es') := by
  generalize hl : Level.searched = l at h
  induction h with
  | nil => exact Sheds.refl _
  | keep e _ ih => exact (Sheds.refl (ofElement e)).append (ih hl)
  | leave ho =>
    rw [← hl] at ho
    cases ho
  | @inside l m e cs es es' hm he _ ihc ih =>
    refine Sheds.append ?_ (ih hl)
    have hshed : e.Sheds p m { e with children := cs } := ⟨cs, he, rfl⟩
    rw [← hl, Level.below?] at hm
    rw [ofElement_eq, ofElement_eq]
    split_ifs at hm ⊢
    · cases hm
      exact ⟨.cons hshed .nil, .nil⟩
    · cases hm
      exact ⟨.nil, .cons hshed .nil⟩
    · cases hm
      exact ihc rfl

/-- The pages of a group stay, with less on them. -/
theorem sheds_findAll (h : e.Sheds p .pages e') :
    List.Forall₂ (Element.Sheds p .content) (e.findAll "page") (e'.findAll "page") := by
  obtain ⟨cs, hcs, rfl⟩ := h
  show List.Forall₂ _ (e.children.filter fun c => c.tag = "page")
    (cs.filter fun c => c.tag = "page")
  generalize e.children = es at hcs
  generalize hl : Level.pages = l at hcs
  induction hcs with
  | nil => exact .nil
  | keep c _ ih =>
    rw [List.filter_cons, List.filter_cons]
    split
    · exact .cons (Element.Sheds.refl _ c) (ih hl)
    · exact ih hl
  | leave ho =>
    rw [← hl] at ho
    cases ho
  | @inside l m c cs es es' hm hc _ _ ih =>
    rw [← hl, Level.below?] at hm
    split at hm
    · next htag =>
      cases hm
      rw [List.filter_cons_of_pos (by simpa using htag),
        List.filter_cons_of_pos (by simpa using htag)]
      exact .cons ⟨cs, hc, rfl⟩ (ih hl)
    · cases hm

/-- Groups and pages may go, and those that stay keep their attributes. -/
structure Shrinks (a b : Layout) : Prop where
  groups : ∀ g ∈ b.groups, ∃ e ∈ a.groups, g.attrs = e.attrs
  pages : ∀ g ∈ b.pages, ∃ e ∈ a.pages, g.attrs = e.attrs

theorem Shrinks.append {a b c d : Layout} (h₁ : Shrinks a b) (h₂ : Shrinks c d) :
    Shrinks (a.append c) (b.append d) := by
  have happend {as bs cs ds : List Element} (h₁ : ∀ g ∈ bs, ∃ e ∈ as, g.attrs = e.attrs)
      (h₂ : ∀ g ∈ ds, ∃ e ∈ cs, g.attrs = e.attrs) :
      ∀ g ∈ bs ++ ds, ∃ e ∈ as ++ cs, g.attrs = e.attrs := by
    intro g hg
    rcases List.mem_append.mp hg with hg | hg
    · obtain ⟨e, he, ha⟩ := h₁ g hg
      exact ⟨e, List.mem_append_left _ he, ha⟩
    · obtain ⟨e, he, ha⟩ := h₂ g hg
      exact ⟨e, List.mem_append_right _ he, ha⟩
  exact ⟨happend h₁.groups h₂.groups, happend h₁.pages h₂.pages⟩

theorem Shrinks.refl (a : Layout) : Shrinks a a :=
  ⟨fun g hg => ⟨g, hg, rfl⟩, fun g hg => ⟨g, hg, rfl⟩⟩

theorem Shrinks.none (a : Layout) : Shrinks a {} :=
  ⟨fun _ hg => absurd hg List.not_mem_nil, fun _ hg => absurd hg List.not_mem_nil⟩

/-- With an element go the groups and pages in it. -/
theorem shrinks_ofElements (h : Omits p l es es') :
    Shrinks (ofElements es) (ofElements es') := by
  induction h with
  | nil => exact Shrinks.refl _
  | keep e _ ih => exact (Shrinks.refl (ofElement e)).append ih
  | @leave _ e _ _ _ _ _ ih => exact (Shrinks.none (ofElement e)).append ih
  | @inside l m e cs es es' _ _ _ ihc ih =>
    refine Shrinks.append ?_ ih
    rw [ofElement_eq, ofElement_eq]
    split_ifs
    · exact ⟨fun g hg => ⟨e, List.mem_cons_self, by rw [List.mem_singleton.mp hg]⟩,
        fun _ hg => absurd hg List.not_mem_nil⟩
    · exact ⟨fun _ hg => absurd hg List.not_mem_nil,
        fun g hg => ⟨e, List.mem_cons_self, by rw [List.mem_singleton.mp hg]⟩⟩
    · exact ihc

end Layout

/-! ## The content of a document without pages -/

namespace Element.AtFirst

variable {R : Element → Element → Prop}

theorem sheds (h : AtFirst t R e e') (hR : ∀ c c', R c c' → c.Sheds p .anything c') :
    e.Sheds p .anything e' := by
  cases h with
  | self _ hr => exact hR _ _ hr
  | @child c c' before after he _ _ hr =>
    obtain ⟨cs, hcs, rfl⟩ := hR _ _ hr
    refine ⟨_, ?_, rfl⟩
    rw [he]
    exact (Omits.inside rfl hcs (Omits.refl _ after)).append before

/-- The child, or the element itself, is found on both sides. -/
theorem found (h : AtFirst t R e e') (hR : ∀ c c', R c c' → c.Sheds p .anything c')
    (hp : ∀ e, p e → e.tag ≠ t) : R ((e.find? t).getD e) ((e'.find? t).getD e') := by
  cases h with
  | self he hr =>
    rcases (hR _ _ hr).find? hp with ⟨-, he'⟩ | ⟨c, -, hc, -, -⟩
    · rw [he, he']
      exact hr
    · rw [he] at hc
      cases hc
  | @child c c' before after he hbefore hc hr =>
    have hfirst {d : Element} (hd : d.tag = t) :
        (before ++ d :: after).find? (fun b => b.tag = t) = some d := by
      rw [List.find?_append, List.find?_eq_none.mpr (by simpa using hbefore), Option.none_or,
        List.find?_cons_of_pos (by simpa using hd)]
    have hc' : c'.tag = t := (hR _ _ hr).tag.trans hc
    have hfind : e.find? t = some c := (congrArg (List.find? _) he).trans (hfirst hc)
    rw [hfind, find?, hfirst hc']
    exact hr

end Element.AtFirst
end ScreenMarkup
