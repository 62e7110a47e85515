import ScreenMarkup.Markup.Document

/-!
# Searching a document

Reading one top-level element after the other gives the elements of the whole
document, also where the text ends early. So a visit that is done before the
end has seen the first children of the document, and the search that stops
with the element it looks for finds the one that comes first in document order.
-/

set_option autoImplicit false

namespace ScreenMarkup

/-! ## The search in a tree -/

namespace Element

mutual
theorem findDescendant?_eq_find? (tag : String) : (e : Element) →
    e.findDescendant? tag = e.descendants.find? (·.tag = tag)
  | ⟨_, _, _, children, _⟩ => findAmong?_eq_find? tag children

/-- What is found first among some elements is the first in the listing of all of them. -/
theorem findAmong?_eq_find? (tag : String) : (es : List Element) →
    findAmong? tag es = (listing es).find? (·.tag = tag)
  | [] => rfl
  | e :: es => by
    rw [findAmong?, findDescendant?_eq_find? tag e, findAmong?_eq_find? tag es, listing]
    by_cases he : e.tag = tag <;> simp [he]
end

end Element

namespace Markup

variable {σ : Type}

/-! ## One element after the other -/

theorem assemble_cons (stack : List Unclosed) (here rest : List Char) (l : Lexeme)
    (later : List (Lexeme × List Char)) :
    assemble stack here ((l, rest) :: later) =
      match advance stack here rest l with
      | .unclosed stack => assemble stack rest later
      | .complete e => e :: assemble [] rest later
      | .ended => [] := by
  cases l with
  | opening tag attrs => rfl
  | whole tag attrs t => cases stack <;> rfl
  | closing => rcases stack with _ | ⟨u, _ | ⟨outer, more⟩⟩ <;> rfl
  | text t => cases stack <;> rfl
  | skipped => cases stack <;> rfl

/-- The document from some place on: the next top-level element, and then the document from its
end on. -/
theorem assemble_scan (stack : List Unclosed) (s : List Char) :
    assemble stack s (scan s) =
      match firstElement? stack s with
      | some (e, rest) => e :: assemble [] rest (scan rest)
      | none => [] := by
  fun_induction firstElement? stack s with
  | case1 => simp [scan, assemble]
  | case2 u more => simp [scan, assemble]
  | case3 stack c s stack' hp ih =>
    rw [scan, assemble_cons, hp]
    exact ih
  | case4 stack c s e hp => rw [scan, assemble_cons, hp]
  | case5 stack c s hp => rw [scan, assemble_cons, hp]

theorem forIn_yield {step : Element → σ → ForInStep σ} {e : Element} {x y : σ}
    (h : step e x = .yield y) (es : List Element) :
    (forIn (e :: es) x step : Id σ) = forIn es y step := by
  rw [List.forIn_cons, h]
  rfl

theorem forIn_done {step : Element → σ → ForInStep σ} {e : Element} {x y : σ}
    (h : step e x = .done y) (es : List Element) :
    (forIn (e :: es) x step : Id σ) = y := by
  rw [List.forIn_cons, h]
  rfl

theorem visit_go_eq_forIn (step : Element → σ → ForInStep σ) (x : σ) (s : List Char) :
    visit.go step x s = (forIn (assemble [] s (scan s)) x step : Id σ) := by
  fun_induction visit.go step x s with
  | case1 x s h =>
    rw [assemble_scan, h]
    rfl
  | case2 x s e rest h y hs => rw [assemble_scan, h, forIn_done hs]
  | case3 x s e rest h y hs ih => rw [assemble_scan, h, forIn_yield hs, ih]

/-- A visit is a loop over the children of the document that may end early. -/
theorem visit_eq_forIn (text : String) (x : σ) (step : Element → σ → ForInStep σ) :
    visit text x step = (forIn (parse text).children x step : Id σ) :=
  visit_go_eq_forIn step x text.toList

/-! ## Visits that end early -/

/-- A visitor that counts its visits, does some work in each, and is done with the `n`-th. -/
def stopAt (n : Nat) (work : σ → Element → σ) (e : Element) (x : Nat × σ) :
    ForInStep (Nat × σ) :=
  if x.1 + 1 < n then .yield (x.1 + 1, work x.2 e) else .done (x.1 + 1, work x.2 e)

/-- After `k` visits the work goes on with the next `n - k` elements. -/
theorem forIn_stopAt {n k : Nat} (hk : k < n) (work : σ → Element → σ) (x : σ)
    (es : List Element) :
    (forIn es (k, x) (stopAt n work) : Id (Nat × σ)) =
      (k + min (n - k) es.length, (es.take (n - k)).foldl work x) := by
  induction es generalizing k x with
  | nil => simp; rfl
  | cons e es ih =>
    by_cases hnext : k + 1 < n
    · have hyield : stopAt n work e (k, x) = .yield (k + 1, work x e) := if_pos hnext
      have hrest : n - k = n - (k + 1) + 1 := by omega
      rw [forIn_yield hyield, ih hnext, hrest, List.take_succ_cons, List.foldl_cons,
        List.length_cons]
      congr 1
      omega
    · have hdone : stopAt n work e (k, x) = .done (k + 1, work x e) := if_neg hnext
      have hrest : n - k = 1 := by omega
      rw [forIn_done hdone, hrest]
      simp

theorem visit_stopAt {n : Nat} (hn : 0 < n) (work : σ → Element → σ) (x : σ) (text : String) :
    visit text (0, x) (stopAt n work) =
      (min n (parse text).children.length, ((parse text).children.take n).foldl work x) := by
  rw [visit_eq_forIn, forIn_stopAt hn]
  simp

/-- The loop ends with the first element that is wanted or has something wanted below it. -/
theorem forIn_find (tag : String) (es : List Element) :
    (forIn es none (fun e _ =>
      match if e.tag = tag then some e else e.findDescendant? tag with
      | some found => .done (some found)
      | none => .yield none) : Id (Option Element)) = Element.findAmong? tag es := by
  induction es with
  | nil => rfl
  | cons e es ih =>
    rw [Element.findAmong?]
    by_cases he : e.tag = tag
    · rw [forIn_done (y := some e) (by simp [he]), if_pos he]
    · rw [if_neg he]
      cases hfound : e.findDescendant? tag with
      | some found => rw [forIn_done (y := some found) (by simp [he, hfound]), Option.some_or]
      | none => rw [forIn_yield (y := none) (by simp [he, hfound]), ih, Option.none_or]

/-- The search that stops early finds the first element with the tag in document order, as the
search in the whole tree does. A visit that is done with its `n`-th element has worked on the first
`n` children of the document in order, or on all if there are fewer. -/
theorem search_agrees_with_tree (text tag : String) :
    findFirst? text tag = (parse text).descendants.find? (·.tag = tag) ∧
    (parse text).findDescendant? tag = (parse text).descendants.find? (·.tag = tag) ∧
    ∀ {σ : Type} (work : σ → Element → σ) (x : σ) (n : Nat), 0 < n →
      visit text (0, x) (stopAt n work) =
        (min n (parse text).children.length, ((parse text).children.take n).foldl work x) := by
  have htree := Element.findDescendant?_eq_find? tag (parse text)
  refine ⟨?_, htree, fun work x n hn => visit_stopAt hn work x text⟩
  rw [← htree, findFirst?, visit_eq_forIn, Element.findDescendant?_eq]
  exact forIn_find tag (parse text).children

/-- The element lies in the second of three top-level elements, the last of which is not closed. -/
theorem search_agrees_with_tree_nested :
    let text := "<a/><p><b id='1'/></p><b id='2'>"
    (findFirst? text "b").map (·.attr "id") = some "1" ∧
      visit text (0, []) (stopAt 2 fun seen e => seen ++ [e.tag]) = (2, ["a", "p"]) := by
  intro text
  obtain ⟨hfirst, -, hvisit⟩ := search_agrees_with_tree text "b"
  constructor
  · rw [hfirst]
    decide +kernel
  · rw [hvisit _ _ _ (by decide)]
    decide +kernel

end Markup
end ScreenMarkup
