import ScreenMarkup.Markup.Document

/-!
# Assembling elements

Every element of a document is made by the same few steps: a start tag opens
it, text and children are added to it, and it is closed. What these steps keep
holds of the whole document: of each element once it is complete, and before
that of what has been read of it.
-/

set_option autoImplicit false

namespace ScreenMarkup

theorem Element.mem_listing {es : List Element} {d : Element} :
    d ∈ listing es ↔ ∃ e ∈ es, d = e ∨ d ∈ e.descendants := by
  induction es with
  | nil => simp [listing]
  | cons e es ih => simp [listing, ih, or_assoc]

namespace Markup

open Element (listing mem_listing)

/-- Reading the text keeps `P` of complete elements, and `U` of unclosed ones with what is left. -/
structure Keeps (text : List Char) (P : Element → Prop) (U : Unclosed → List Char → Prop) :
    Prop where
  opening {tag : String} {attrs : NameTable} {rest : List Char}
    (h : (Lexeme.opening tag attrs, rest) ∈ scan text) : U ⟨tag, attrs, rest, "", []⟩ rest
  whole {tag body : String} {attrs : NameTable} {rest : List Char}
    (h : (Lexeme.whole tag attrs body, rest) ∈ scan text) : P ⟨tag, attrs, body, [], ""⟩
  text {t : String} {rest : List Char} (h : (Lexeme.text t, rest) ∈ scan text) {u : Unclosed}
    (hu : U u rest) : U (u.addText t) rest
  pass {u : Unclosed} {c : Char} {s : List Char} (hu : U u (c :: s)) : U u (next c s).2
  /-- A child is complete only where its source has been read. -/
  child {u : Unclosed} {e : Element} {here : List Char} (hbody : here.length < u.body.length)
    (hu : U u here) (he : P e) : U (u.addChild e) here
  /-- Content stops at a closing tag, or with the text. -/
  close {u : Unclosed} {here : List Char} (hstop : ∀ c, here.head? = some c → c = '<')
    (hu : U u here) : P (u.close here)

theorem next_closing {c : Char} {s r : List Char} (h : next c s = (.closing, r)) : c = '<' := by
  unfold next at h
  split at h
  · cases h
  · split at h
    · assumption
    · cases h

namespace Keeps

variable {text : List Char} {P : Element → Prop} {U : Unclosed → List Char → Prop}

/-- All that is unclosed, the innermost element at the start of its content at the earliest and the
outer ones past it. -/
structure Stack (U : Unclosed → List Char → Prop) (stack : List Unclosed) (here : List Char) :
    Prop where
  kept : ∀ u ∈ stack, U u here
  reached : ∀ u ∈ stack, here.length ≤ u.body.length
  passed : ∀ u ∈ stack.tail, here.length < u.body.length

theorem Stack.nil (here : List Char) : Stack U [] here :=
  ⟨by simp, by simp, by simp⟩

/-- The innermost element changes, but not where its content starts. -/
theorem Stack.replace {u v : Unclosed} {more : List Unclosed} {here : List Char}
    (hs : Stack U (u :: more) here) (hv : U v here) (hbody : v.body = u.body) :
    Stack U (v :: more) here := by
  refine ⟨fun w hw => ?_, fun w hw => ?_, hs.passed⟩
  · rcases List.mem_cons.mp hw with rfl | hw
    · exact hv
    · exact hs.kept w (List.mem_cons_of_mem _ hw)
  · rcases List.mem_cons.mp hw with rfl | hw
    · rw [hbody]
      exact hs.reached u List.mem_cons_self
    · exact hs.reached w (List.mem_cons_of_mem _ hw)

theorem Stack.outer {u : Unclosed} {more : List Unclosed} {here : List Char}
    (hs : Stack U (u :: more) here) : Stack U more here :=
  ⟨fun w hw => hs.kept w (List.mem_cons_of_mem _ hw),
    fun w hw => Nat.le_of_lt (hs.passed w hw),
    fun w hw => hs.passed w (List.mem_of_mem_tail hw)⟩

theorem Stack.addChild (hk : Keeps text P U) {u : Unclosed} {more : List Unclosed}
    {here : List Char} (hs : Stack U (u :: more) here) (hbody : here.length < u.body.length)
    {e : Element} (he : P e) : Stack U (u.addChild e :: more) here :=
  hs.replace (hk.child hbody (hs.kept u List.mem_cons_self) he) rfl

theorem closeAll (hk : Keeps text P U) {more : List Unclosed} {u : Unclosed}
    (hs : Stack U (u :: more) []) : P (u.closeAll more) := by
  have hclosed {w : Unclosed} (hw : U w []) : P (w.close []) := hk.close (by simp) hw
  induction more generalizing u with
  | nil => exact hclosed (hs.kept u List.mem_cons_self)
  | cons outer more ih =>
    apply ih
    exact hs.outer.addChild hk (hs.passed outer List.mem_cons_self)
      (hclosed (hs.kept u List.mem_cons_self))

theorem assemble (hk : Keeps text P U) {stack : List Unclosed} {s : List Char}
    (hl : ∀ l ∈ scan s, l ∈ scan text) (hs : Stack U stack s) :
    ∀ e ∈ Markup.assemble stack s (scan s), P e := by
  fun_induction scan s generalizing stack with
  | case1 =>
    cases stack with
    | nil => simp [Markup.assemble]
    | cons u more => simpa [Markup.assemble] using hk.closeAll hs
  | case2 c s ih =>
    have hlength := next_length_le c s
    have hpast : ∀ u ∈ stack, (next c s).2.length < u.body.length := by
      intro u hu
      have := hs.reached u hu
      rw [List.length_cons] at this
      omega
    have hpass : Stack U stack (next c s).2 :=
      ⟨fun u hu => hk.pass (hs.kept u hu), fun u hu => Nat.le_of_lt (hpast u hu),
        fun u hu => hpast u (List.mem_of_mem_tail hu)⟩
    obtain ⟨hlexeme, hlater⟩ := List.forall_mem_cons.mp hl
    rcases hnext : next c s with ⟨lexeme, r⟩
    rw [hnext] at ih hpast hpass hlexeme hlater
    cases lexeme with
    | opening tag attrs =>
      apply ih hlater
      refine ⟨fun u hu => ?_, fun u hu => ?_, hpast⟩
      · rcases List.mem_cons.mp hu with rfl | hu
        · exact hk.opening hlexeme
        · exact hpass.kept u hu
      · rcases List.mem_cons.mp hu with rfl | hu
        · exact Nat.le_refl _
        · exact hpass.reached u hu
    | whole tag attrs body =>
      have hwhole := hk.whole hlexeme
      cases stack with
      | nil => exact List.forall_mem_cons.mpr ⟨hwhole, ih hlater (Stack.nil r)⟩
      | cons u more => exact ih hlater (hpass.addChild hk (hpast u List.mem_cons_self) hwhole)
    | closing =>
      obtain rfl := next_closing hnext
      cases stack with
      | nil => simp [Markup.assemble]
      | cons u more =>
        have hclosed : P (u.close ('<' :: s)) :=
          hk.close (fun c hc => (Option.some.inj hc).symm) (hs.kept u List.mem_cons_self)
        cases more with
        | nil => exact List.forall_mem_cons.mpr ⟨hclosed, ih hlater (Stack.nil r)⟩
        | cons outer more =>
          exact ih hlater (hpass.outer.addChild hk (hpast outer (by simp)) hclosed)
    | text t =>
      cases stack with
      | nil => exact ih hlater (Stack.nil r)
      | cons u more =>
        exact ih hlater (hpass.replace (hk.text hlexeme (hpass.kept u List.mem_cons_self)) rfl)
    | skipped => exact ih hlater hpass

/-- What is kept of each element is kept of all that stands below it. -/
theorem below (hk : Keeps text P U) :
    Keeps text (fun e => ∀ d ∈ listing [e], P d)
      (fun u here => U u here ∧ ∀ d ∈ listing u.children, P d) where
  opening h := ⟨hk.opening h, by simp [listing]⟩
  whole h := by simpa [listing, Element.descendants] using hk.whole h
  text h _ hu := ⟨hk.text h hu.1, hu.2⟩
  pass hu := ⟨hk.pass hu.1, hu.2⟩
  child hbody hu he := by
    refine ⟨hk.child hbody hu.1 (he _ (by simp [listing])), fun d hd => ?_⟩
    obtain ⟨e, hmem, hde⟩ := mem_listing.mp hd
    rcases List.mem_cons.mp hmem with rfl | hmem
    · exact he d (mem_listing.mpr ⟨e, List.mem_cons_self, hde⟩)
    · exact hu.2 d (mem_listing.mpr ⟨e, hmem, hde⟩)
  close hstop hu d hd := by
    obtain ⟨e, hmem, hde⟩ := mem_listing.mp hd
    obtain rfl := List.mem_singleton.mp hmem
    rcases hde with rfl | hde
    · exact hk.close hstop hu.1
    · rw [Element.descendants_eq] at hde
      obtain ⟨c, hc, hdc⟩ := mem_listing.mp hde
      exact hu.2 d (mem_listing.mpr ⟨c, List.mem_reverse.mp hc, hdc⟩)

/-- What is kept holds of every element of the document. -/
theorem descendants {text : String} (hk : Keeps text.toList P U) :
    ∀ d ∈ (parse text).descendants, P d := by
  intro d hd
  rw [Element.descendants_eq] at hd
  obtain ⟨e, he, hde⟩ := mem_listing.mp hd
  apply hk.below.assemble (fun _ h => h) (Stack.nil _) e he d
  exact mem_listing.mpr ⟨e, List.mem_cons_self, hde⟩

end Keeps
end Markup
end ScreenMarkup
