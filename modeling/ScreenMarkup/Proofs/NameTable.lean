import Mathlib.Data.List.Nodup
import Mathlib.Data.List.Perm.Basic
import ScreenMarkup.NameTable

/-!
# Filling tables

A table that is filled from a list has the entries of the list. Where no name
occurs twice it has all of them, so the order of the list does not matter.
-/

set_option autoImplicit false

namespace ScreenMarkup.NameTable

theorem mem_ofList {l : List (String × String)} {e : String × String}
    (he : e ∈ (ofList l).entries) : e ∈ l := by
  have hfold (l : List (String × String)) (t : NameTable)
      (he : e ∈ (l.foldl (fun t e => t.insert e.1 e.2) t).entries) : e ∈ t.entries ∨ e ∈ l := by
    induction l generalizing t with
    | nil => exact .inl he
    | cons d l ih =>
      rcases ih (t.insert d.1 d.2) he with h | h
      · rcases mem_put h with rfl | h
        · exact .inr List.mem_cons_self
        · exact .inl h
      · exact .inr (List.mem_cons_of_mem _ h)
  rcases hfold l empty he with h | h
  · cases h
  · exact h

theorem put_perm {name value : String} {es : List (String × String)} (hn : name ∉ es.map (·.1)) :
    (put name value es).Perm ((name, value) :: es) := by
  induction es with
  | nil => exact List.Perm.refl _
  | cons d es ih =>
    rw [List.map_cons, List.mem_cons, not_or] at hn
    unfold put
    split
    · exact List.Perm.refl _
    · rw [if_neg (Ne.symm hn.1)]
      exact ((ih hn.2).cons d).trans (List.Perm.swap _ _ _)

theorem ofList_perm {es : List (String × String)} (hn : (es.map (·.1)).Nodup) :
    (ofList es).entries.Perm es := by
  have hfold (es : List (String × String)) (t : NameTable)
      (hn : (t.entries.map (·.1) ++ es.map (·.1)).Nodup) :
      (es.foldl (fun t e => t.insert e.1 e.2) t).entries.Perm (t.entries ++ es) := by
    induction es generalizing t with
    | nil =>
      rw [List.append_nil]
      exact List.Perm.refl _
    | cons d es ih =>
      have hfresh : d.1 ∉ t.entries.map (·.1) := by
        intro h
        exact (List.nodup_append.mp hn).2.2 _ h _ List.mem_cons_self rfl
      have hput : (t.insert d.1 d.2).entries.Perm (d :: t.entries) := put_perm hfresh
      have hmoved : ((d :: t.entries) ++ es).Perm (t.entries ++ d :: es) :=
        List.perm_middle.symm
      have hnames : ((t.insert d.1 d.2).entries.map (·.1) ++ es.map (·.1)).Nodup := by
        rw [← List.map_append] at hn ⊢
        exact (((hput.append_right es).trans hmoved).map _).nodup_iff.mpr hn
      exact (ih _ hnames).trans ((hput.append_right es).trans hmoved)
  exact hfold es empty hn

/-- The entries of a table, in any order, give the table back. -/
theorem ofList_eq {es : List (String × String)} {t : NameTable} (hp : es.Perm t.entries) :
    ofList es = t := by
  have hnames : (t.entries.map (·.1)).Nodup := by
    rw [List.Nodup, List.pairwise_map]
    apply t.ordered.imp
    intro a b h he
    rw [he] at h
    exact String.lt_irrefl _ h
  have hperm := (ofList_perm ((hp.map _).nodup_iff.mpr hnames)).trans hp
  have hentries : (ofList es).entries = t.entries := by
    apply List.Perm.eq_of_pairwise _ (ofList es).ordered t.ordered hperm
    intro a b _ _ hab hba
    exact absurd (String.lt_trans hab hba) (String.lt_irrefl _)
  cases t
  cases he : ofList es
  rw [he] at hentries
  cases hentries
  rfl

end ScreenMarkup.NameTable
