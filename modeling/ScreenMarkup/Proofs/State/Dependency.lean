import Mathlib.Data.List.Nodup
import ScreenMarkup.Proofs.State.Placeholder

/-!
# What a template depends on

A write of a variable changes the text of no other variable, and so it
changes no template that does not mention the variable.

A template depends on a variable whose placeholder stands in it. To mention it
is less: the braces may be part of a longer name, or hold more than a name can
have.
-/

set_option autoImplicit false

namespace ScreenMarkup

theorem lookup_cons_if {κ β : Type} [DecidableEq κ] (e : κ × β) (es : List (κ × β)) (n : κ) :
    (e :: es).lookup n = if n = e.1 then some e.2 else es.lookup n := by
  rw [List.lookup_cons]
  by_cases hn : n = e.1
  · rw [if_pos hn, hn, beq_self_eq_true]
  · rw [if_neg hn, beq_eq_false_iff_ne.mpr hn]

theorem lookup_filter_ne {κ β : Type} [DecidableEq κ] (es : List (κ × β)) (name n : κ) :
    (es.filter fun e => e.1 ≠ name).lookup n = if n = name then none else es.lookup n := by
  induction es with
  | nil => rw [List.filter_nil, List.lookup_nil, ite_self]
  | cons e es ih =>
    by_cases he : e.1 = name
    · rw [List.filter_cons_of_neg (by simpa using he), ih, lookup_cons_if, he]
      split <;> rfl
    · rw [List.filter_cons_of_pos (by simpa using he), lookup_cons_if, lookup_cons_if, ih]
      by_cases hn : n = name
      · rw [if_neg fun hne => he (hne.symm.trans hn), if_pos hn, if_pos hn]
      · rw [if_neg hn, if_neg hn]

namespace Store

variable {s : Store} {name n : String}

theorem lookup_put (name n : String) (v : Variable) (vars : List (String × Variable)) :
    (put name v vars).lookup n = if n = name then some v else vars.lookup n := by
  induction vars with
  | nil =>
    rw [put, lookup_cons_if]
  | cons e es ih =>
    unfold put
    by_cases hk : e.1 = name
    · rw [if_pos hk, lookup_cons_if, lookup_cons_if, hk]
      split
      · rfl
      · rfl
    · rw [if_neg hk, lookup_cons_if, lookup_cons_if, ih]
      by_cases hn : n = name
      · rw [if_pos hn, if_neg fun he => hk (he.symm.trans hn), if_pos hn]
      · rw [if_neg hn, if_neg hn]

theorem text_withVariable (v : Variable) (hn : n ≠ name) :
    (s.withVariable name v).text n = s.text n := by
  rw [text, text, get?, get?, withVariable, lookup_put, if_neg hn]

theorem text_notice (value : Value) : (s.notice name value).text n = s.text n := by
  unfold notice
  split <;> rfl

/-- A write tells when it changes nothing at all, and it changes one variable at most. -/
theorem set_spec (s : Store) (name : String) (value : Value) (notify : Bool) :
    ((s.set name value notify).1 = false → (s.set name value notify).2 = s) ∧
      ∀ n, n ≠ name → (s.set name value notify).2.text n = s.text n := by
  unfold set
  extract_lets written
  have hwritten (v : Variable) : (written v).1 = true ∧
      ∀ n, n ≠ name → (written v).2.text n = s.text n := by
    refine ⟨rfl, fun n hn => ?_⟩
    cases notify with
    | false => exact text_withVariable v hn
    | true => exact (text_notice value).trans (text_withVariable v hn)
  split
  · next v hv =>
    split
    · exact ⟨fun _ => rfl, fun _ _ => rfl⟩
    · obtain ⟨hc, ht⟩ := hwritten { v with value := value }
      exact ⟨fun hf => absurd (hc.symm.trans hf) (by decide), ht⟩
  · obtain ⟨hc, ht⟩ := hwritten ⟨.string, value, value⟩
    exact ⟨fun hf => absurd (hc.symm.trans hf) (by decide), ht⟩

end Store

namespace Template

variable {template : String} {store store' : Store}

theorem mem_scan {s name : List Char} (hp : .placeholder name ∈ scan s) :
    ∃ a b, s = a ++ ('{' :: (name ++ ['}'])) ++ b := by
  obtain ⟨-, -, a, b, he, -⟩ := placeholder_mem_scan.mp hp
  exact ⟨a, b, by simp [he]⟩

/-- The search for the text of a placeholder finds every placeholder. -/
theorem mentions_of_mem_scan {name : List Char} (hp : .placeholder name ∈ scan template.toList)
    (hn : name ≠ []) : mentions template (String.ofList name) = true := by
  obtain ⟨a, b, hab⟩ := mem_scan hp
  have hne : String.ofList name ≠ "" := by
    intro he
    exact hn (by simpa using congrArg String.toList he)
  rw [mentions, token, String.toList_ofList, hab, Text.contains_append]
  simpa using hne

/-- A template reads the variables of its placeholders, and nothing else of a store. -/
theorem render_congr_placeholders
    (hs : ∀ cs, .placeholder cs ∈ scan template.toList →
      store'.text (String.ofList cs) = store.text (String.ofList cs)) :
    render template store' = render template store := by
  have hexpand : ∀ p ∈ scan template.toList, p.expand store' = p.expand store := by
    intro p hp
    cases p with
    | literal c => rfl
    | placeholder cs => rw [Piece.expand, Piece.expand, hs cs hp]
  rw [render, render, List.flatMap_def, List.flatMap_def, List.map_congr_left hexpand]

/-- Two stores that agree on the variables that a template mentions, and on the one without a
name, render it alike. -/
theorem render_congr
    (hs : ∀ name, name = "" ∨ mentions template name = true → store'.text name = store.text name) :
    render template store' = render template store := by
  refine render_congr_placeholders fun cs hp => hs _ ?_
  by_cases hcs : cs = []
  · exact .inl (by rw [hcs])
  · exact .inr (mentions_of_mem_scan hp hcs)

/-- The variables of a template are the names of its placeholders, the empty name apart. -/
theorem mem_dependencies {name : String} :
    name ∈ dependencies template ↔
      name ≠ "" ∧ .placeholder name.toList ∈ scan template.toList := by
  constructor
  · intro hn
    obtain ⟨cs, hcs, rfl⟩ := List.mem_map.mp hn
    obtain ⟨p, hp, hname⟩ := List.mem_filterMap.mp (List.mem_eraseDups.mp hcs)
    cases p with
    | literal c => cases hname
    | placeholder cs' =>
      obtain ⟨hne, he⟩ := Option.ite_none_left_eq_some.mp hname
      cases he
      rw [String.toList_ofList]
      exact ⟨fun he => hne (by simpa using congrArg String.toList he), hp⟩
  · rintro ⟨hne, hp⟩
    have hcs : name.toList ≠ [] := fun he => hne (String.toList_eq_nil_iff.mp he)
    refine List.mem_map.mpr ⟨name.toList, List.mem_eraseDups.mpr ?_, String.ofList_toList⟩
    exact List.mem_filterMap.mpr ⟨_, hp, if_neg hcs⟩

theorem mentions_of_mem_dependencies {name : String} (hn : name ∈ dependencies template) :
    mentions template name = true := by
  obtain ⟨hne, hp⟩ := mem_dependencies.mp hn
  have hcs : name.toList ≠ [] := fun he => hne (String.toList_eq_nil_iff.mp he)
  simpa using mentions_of_mem_scan hp hcs

/-- The listed variables are all that a template reads, but for the one without a name. -/
theorem render_congr_dependencies (hempty : store'.text "" = store.text "")
    (hs : ∀ name ∈ dependencies template, store'.text name = store.text name) :
    render template store' = render template store := by
  refine render_congr_placeholders fun cs hp => ?_
  by_cases hcs : String.ofList cs = ""
  · rw [hcs, hempty]
  · exact hs _ (mem_dependencies.mpr ⟨hcs, by rwa [String.toList_ofList]⟩)

/-! ## The list of variables -/

theorem nodup_eraseDups {α : Type} [BEq α] [LawfulBEq α] (l : List α) : l.eraseDups.Nodup := by
  match l with
  | [] => exact List.nodup_nil
  | a :: l =>
    rw [List.eraseDups_cons, List.nodup_cons, List.mem_eraseDups, List.mem_filter]
    refine ⟨fun h => by simpa using h.2, nodup_eraseDups _⟩
termination_by l.length
decreasing_by exact Nat.lt_succ_of_le (List.length_filter_le _ l)

theorem nodup_dependencies (template : String) : (dependencies template).Nodup :=
  (nodup_eraseDups _).map fun _ _ => String.ofList_injective

/-- The variables of a template are listed once, and they are those with a placeholder in it. A
template mentions each of them. It mentions no other variable exactly when each mention is a
placeholder. -/
theorem dependencies_spec (template : String) : (dependencies template).Nodup ∧ ∀ name,
    (name ∈ dependencies template ↔ name ≠ "" ∧ Stands template.toList name.toList) ∧
    ((name ∈ dependencies template ↔ mentions template name = true) ↔
      (mentions template name = true → Stands template.toList name.toList)) := by
  refine ⟨nodup_dependencies template, fun name => ?_⟩
  have hmem : name ∈ dependencies template ↔ name ≠ "" ∧ Stands template.toList name.toList := by
    rw [mem_dependencies, placeholder_mem_scan]
  refine ⟨hmem, fun h hm => (hmem.mp (h.mpr hm)).2, fun h => ⟨mentions_of_mem_dependencies, ?_⟩⟩
  intro hm
  have hne : name ≠ "" := by
    rintro rfl
    exact absurd hm (by simp [mentions])
  exact hmem.mpr ⟨hne, h hm⟩

/-- The braces of `b` are within the name of a longer placeholder. -/
theorem mention_without_dependency : ¬∀ template name : String, name ≠ "" →
    (name ∈ dependencies template ↔ mentions template name = true) := by
  intro h
  have hb := (h "\x7ba\x7bb\x7d" "b" (by decide)).mpr (by decide +kernel)
  exact absurd hb (by decide +kernel)

end Template
end ScreenMarkup
