import ScreenMarkup.Document.Head
import ScreenMarkup.Proofs.State.Writes

/-!
# Declaring variables

The head of a document sets the variables that it declares, in order. To
declare the same variables once more changes nothing.
-/

set_option autoImplicit false

namespace ScreenMarkup

namespace Store

variable {name n : String} {v w : Variable} {vars : List (String × Variable)}

def putAll (ds : List (String × Variable)) (vars : List (String × Variable)) :
    List (String × Variable) :=
  ds.foldl (fun vars d => put d.1 d.2 vars) vars

theorem lookup_putAll_of_not_mem {ds : List (String × Variable)} (hn : n ∉ ds.map (·.1)) :
    (putAll ds vars).lookup n = vars.lookup n := by
  induction ds generalizing vars with
  | nil => rfl
  | cons d ds ih =>
    rw [List.map_cons, List.mem_cons, not_or] at hn
    show (putAll ds (put d.1 d.2 vars)).lookup n = _
    rw [ih hn.2, lookup_put, if_neg hn.1]

theorem isSome_lookup_putAll {ds : List (String × Variable)}
    (hn : n ∈ ds.map (·.1) ∨ (vars.lookup n).isSome = true) :
    ((putAll ds vars).lookup n).isSome = true := by
  induction ds generalizing vars with
  | nil => exact hn.resolve_left fun h => nomatch h
  | cons d ds ih =>
    apply ih
    rw [lookup_put]
    by_cases hd : n = d.1
    · rw [if_pos hd]
      exact .inr rfl
    · rw [if_neg hd]
      exact hn.imp_left fun hn => (List.mem_cons.mp hn).resolve_left hd

/-- A value that is overwritten later leaves no trace in a variable that was there before. -/
theorem putAll_put {ds : List (String × Variable)} (hn : n ∈ ds.map (·.1))
    (hw : (vars.lookup n).isSome = true) (w : Variable) :
    putAll ds (put n w vars) = putAll ds vars := by
  induction ds generalizing vars with
  | nil => cases hn
  | cons d ds ih =>
    show putAll ds (put d.1 d.2 (put n w vars)) = putAll ds (put d.1 d.2 vars)
    by_cases hd : n = d.1
    · rw [hd, put_put]
    · rw [put_comm hd hw]
      refine ih ((List.mem_cons.mp hn).resolve_left hd) ?_
      rw [lookup_put, if_neg hd]
      exact hw

theorem putAll_putAll (ds vars : List (String × Variable)) :
    putAll ds (putAll ds vars) = putAll ds vars := by
  induction ds generalizing vars with
  | nil => rfl
  | cons d ds ih =>
    -- Either the first declaration is overwritten later, or its value stands there to the end.
    show putAll ds (put d.1 d.2 (putAll ds (put d.1 d.2 vars))) = putAll ds (put d.1 d.2 vars)
    by_cases hd : d.1 ∈ ds.map (·.1)
    · rw [putAll_put hd (isSome_lookup_putAll (.inl hd)), ih]
    · have hlookup : (putAll ds (put d.1 d.2 vars)).lookup d.1 = some d.2 := by
        rw [lookup_putAll_of_not_mem hd, lookup_put, if_pos rfl]
      rw [put_of_lookup hlookup, ih]

end Store

namespace Head

/-- The variable that a child of a state section declares. -/
def declared? (e : Element) : Option (String × Variable) :=
  if e.attr "name" = "" ∨ !VarType.isKnown e.tag then none
  else
    let type := VarType.ofName e.tag
    let value := Value.read type (e.attr "default")
    some (e.attr "name", ⟨type, value, value⟩)

def declarations (app : Element) : List (String × Variable) :=
  match app.find? "state" with
  | some e => e.children.filterMap declared?
  | none => []

theorem declareState_eq (e : Element) (store : Store) : declareState e store =
    { store with vars := Store.putAll (e.children.filterMap declared?) store.vars } := by
  unfold declareState
  induction e.children generalizing store with
  | nil => rfl
  | cons v vs ih =>
    rw [List.foldl_cons, ih, List.filterMap_cons, declared?]
    dsimp only
    split
    · rfl
    · rfl

/-- The store keeps the declarations of a head, and the rest of the head does not read it. -/
theorem read_eq (app : Element) (store : Store) (sheet : Stylesheet) (iconDir : String) :
    read app store sheet iconDir =
      ((read app {} sheet iconDir).1,
        { store with vars := Store.putAll (declarations app) store.vars },
        (read app {} sheet iconDir).2.2) := by
  refine Prod.ext rfl (Prod.ext ?_ rfl)
  unfold read declarations
  cases app.find? "state" with
  | none => rfl
  | some e => exact declareState_eq e store

end Head
end ScreenMarkup
