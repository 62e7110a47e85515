import Mathlib.Data.List.Sort
import Mathlib.Order.Defs.LinearOrder

/-!
# Sorting by a key

A stable sort by a key puts the list into the order of the keys and keeps the
order of the members of one key.
-/

set_option autoImplicit false

namespace ScreenMarkup

variable {α κ : Type} [LinearOrder κ] {key : α → κ} {l : List α}

/-- A list that is sorted by a key consists of its parts of one key each. -/
theorem flatMap_filter_eq {keys : List κ} (hkeys : keys.Pairwise (· < ·))
    (hl : l.Pairwise fun a b => key a ≤ key b) (hmem : ∀ a ∈ l, key a ∈ keys) :
    keys.flatMap (fun k => l.filter fun a => key a = k) = l := by
  induction l with
  | nil => simp
  | cons a l ih =>
    obtain ⟨hle, hl⟩ := List.pairwise_cons.1 hl
    have hrest := ih hl fun b hb => hmem b (List.mem_cons_of_mem a hb)
    obtain ⟨low, high, rfl⟩ := List.append_of_mem (hmem a List.mem_cons_self)
    obtain ⟨-, hhigh, hlow⟩ := List.pairwise_append.1 hkeys
    have hbelow (k : κ) (hk : k ∈ low) : l.filter (fun b => key b = k) = [] := by
      rw [List.filter_eq_nil_iff]
      intro b hb
      have hless := hlow k hk (key a) List.mem_cons_self
      rw [decide_eq_true_eq]
      exact (lt_of_lt_of_le hless (hle b hb)).ne'
    have habove (k : κ) (hk : k ∈ high) :
        (a :: l).filter (fun b => key b = k) = l.filter fun b => key b = k := by
      have hless := (List.pairwise_cons.1 hhigh).1 k hk
      exact List.filter_cons_of_neg (by simpa only [decide_eq_true_eq] using hless.ne)
    have hnone : low.flatMap (fun k => l.filter fun b => key b = k) = [] :=
      List.flatMap_eq_nil_iff.2 hbelow
    have hnone' : low.flatMap (fun k => (a :: l).filter fun b => key b = k) = [] := by
      rw [List.flatMap_eq_nil_iff]
      intro k hk
      have hless := hlow k hk (key a) List.mem_cons_self
      rw [List.filter_cons_of_neg (by simpa only [decide_eq_true_eq] using hless.ne'), hbelow k hk]
    rw [List.flatMap_append, List.flatMap_cons, hnone, List.nil_append] at hrest
    rw [List.flatMap_append, List.flatMap_cons, hnone', List.nil_append,
      List.filter_cons_of_pos (by simp), List.flatMap_congr habove, List.cons_append, hrest]

theorem key_le_trans (a b c : α) (hab : decide (key a ≤ key b) = true)
    (hbc : decide (key b ≤ key c) = true) : decide (key a ≤ key c) = true := by
  rw [decide_eq_true_eq] at hab hbc ⊢
  exact le_trans hab hbc

theorem key_le_total (a b : α) : (decide (key a ≤ key b) || decide (key b ≤ key a)) = true := by
  rw [Bool.or_eq_true, decide_eq_true_eq, decide_eq_true_eq]
  exact le_total _ _

theorem pairwise_mergeSort_key (l : List α) :
    (l.mergeSort fun a b => key a ≤ key b).Pairwise fun a b => key a ≤ key b := by
  simpa only [decide_eq_true_eq] using List.pairwise_mergeSort key_le_trans key_le_total l

/-- Sorting by a key keeps the order of the members of one key. -/
theorem filter_mergeSort (l : List α) (k : κ) :
    (l.mergeSort fun a b => key a ≤ key b).filter (fun a => key a = k) =
      l.filter fun a => key a = k := by
  have halike : (l.filter fun a => key a = k).Pairwise fun a b => decide (key a ≤ key b) := by
    apply List.pairwise_of_forall_mem_list
    intro a ha b hb
    rw [List.mem_filter, decide_eq_true_eq] at ha hb
    rw [decide_eq_true_eq, ha.2, hb.2]
  have hsub := List.sublist_mergeSort key_le_trans key_le_total halike List.filter_sublist
  have hkept := hsub.filter fun a => key a = k
  rw [List.filter_filter] at hkept
  simp only [Bool.and_self] at hkept
  exact (hkept.eq_of_length ((List.mergeSort_perm _ _).filter _).length_eq.symm).symm

end ScreenMarkup
