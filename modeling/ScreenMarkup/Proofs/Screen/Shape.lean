import Mathlib.Data.List.Nodup
import Mathlib.Data.List.Perm.Basic
import ScreenMarkup.Screen.Branch

/-!
# The shape of a tree

What the operations on branches do to the handles that occur in a branch and
to the branch that starts at a handle. Almost all of it needs that no handle
occurs twice, because then a change at a handle meets a single place.
-/

set_option autoImplicit false

namespace ScreenMarkup.Branch

variable {h k : Handle} {f : List Branch → List Branch} {b c : Branch} {bs cs : List Branch}

/-- The handles of the branches right below a branch. -/
def childHandles (b : Branch) : List Handle := b.children.map handle

theorem handle_mem_handles (b : Branch) : b.handle ∈ b.handles := by
  cases b
  simp [handle, handles]

theorem handlesAll_append (bs cs : List Branch) :
    handlesAll (bs ++ cs) = handlesAll bs ++ handlesAll cs := by
  induction bs with
  | nil => rfl
  | cons b bs ih => simp [handlesAll, ih]

theorem handlesAll_perm (hp : bs.Perm cs) : (handlesAll bs).Perm (handlesAll cs) := by
  induction hp with
  | nil => exact List.Perm.refl _
  | cons b _ ih => exact ih.append_left b.handles
  | swap b c bs =>
    simp only [handlesAll, ← List.append_assoc]
    exact List.perm_append_comm.append_right _
  | trans _ _ ih₁ ih₂ => exact ih₁.trans ih₂

/-! ## The branch at a handle -/

mutual
theorem find?_eq_none (b : Branch) (hk : k ∉ b.handles) : find? k b = none := by
  obtain ⟨c, bs⟩ := b
  simp only [handles, List.mem_cons, not_or] at hk
  rw [find?, if_neg (Ne.symm hk.1), findAmong?_eq_none bs hk.2]
theorem findAmong?_eq_none (bs : List Branch) (hk : k ∉ handlesAll bs) :
    findAmong? k bs = none := by
  match bs with
  | [] => rfl
  | b :: bs =>
    simp only [handlesAll, List.mem_append, not_or] at hk
    rw [findAmong?, find?_eq_none b hk.1, findAmong?_eq_none bs hk.2, Option.or_none]
end

mutual
theorem find?_isSome (b : Branch) (hk : k ∈ b.handles) : (find? k b).isSome = true := by
  obtain ⟨c, bs⟩ := b
  rw [find?]
  by_cases hc : c = k
  · simp [hc]
  · rw [if_neg hc]
    rcases List.mem_cons.mp hk with rfl | hk
    · exact absurd rfl hc
    · exact findAmong?_isSome bs hk
theorem findAmong?_isSome (bs : List Branch) (hk : k ∈ handlesAll bs) :
    (findAmong? k bs).isSome = true := by
  match bs with
  | [] => simp [handlesAll] at hk
  | b :: bs =>
    rw [findAmong?, Option.isSome_or]
    rcases List.mem_append.mp hk with hk | hk
    · simp [find?_isSome b hk]
    · simp [findAmong?_isSome bs hk]
end

mutual
theorem find?_eq_some (b : Branch) (hf : find? k b = some c) :
    c.handle = k ∧ c.handles.Sublist b.handles := by
  obtain ⟨d, bs⟩ := b
  rw [find?] at hf
  split at hf
  · next hd =>
    cases hf
    exact ⟨hd, List.Sublist.refl _⟩
  · obtain ⟨hc, hs⟩ := findAmong?_eq_some bs hf
    exact ⟨hc, hs.cons d⟩
theorem findAmong?_eq_some (bs : List Branch) (hf : findAmong? k bs = some c) :
    c.handle = k ∧ c.handles.Sublist (handlesAll bs) := by
  match bs with
  | [] => simp [findAmong?] at hf
  | b :: bs =>
    rw [findAmong?, Option.or_eq_some_iff] at hf
    rcases hf with hf | ⟨-, hf⟩
    · obtain ⟨hc, hs⟩ := find?_eq_some b hf
      exact ⟨hc, hs.trans (List.sublist_append_left _ _)⟩
    · obtain ⟨hc, hs⟩ := findAmong?_eq_some bs hf
      exact ⟨hc, hs.trans (List.sublist_append_right _ _)⟩
end

/-- Among branches without a common handle the order does not matter for the search. -/
theorem findAmong?_perm (hp : bs.Perm cs) (hn : (handlesAll bs).Nodup) :
    findAmong? k cs = findAmong? k bs := by
  induction hp with
  | nil => rfl
  | cons b _ ih => rw [findAmong?, findAmong?, ih (List.nodup_append.mp hn).2.1]
  | swap b c bs =>
    simp only [findAmong?, ← Option.or_assoc]
    by_cases hb : k ∈ b.handles
    · have hc : k ∉ c.handles := fun hc =>
        (List.nodup_append.mp hn).2.2 k hc k (List.mem_append_left _ hb) rfl
      simp [find?_eq_none c hc]
    · simp [find?_eq_none b hb]
  | trans h₁ _ ih₁ ih₂ => rw [ih₂ ((handlesAll_perm h₁).nodup_iff.mp hn), ih₁ hn]

/-! ## Changing the branches below a handle -/

mutual
theorem modify_of_not_mem (b : Branch) (hh : h ∉ b.handles) : modify h f b = b := by
  obtain ⟨c, bs⟩ := b
  simp only [handles, List.mem_cons, not_or] at hh
  rw [modify, if_neg (Ne.symm hh.1), modifyAll_of_not_mem bs hh.2]
theorem modifyAll_of_not_mem (bs : List Branch) (hh : h ∉ handlesAll bs) :
    modifyAll h f bs = bs := by
  match bs with
  | [] => rfl
  | b :: bs =>
    simp only [handlesAll, List.mem_append, not_or] at hh
    rw [modifyAll, modify_of_not_mem b hh.1, modifyAll_of_not_mem bs hh.2]
end

mutual
/-- A change that adds some handles below one handle adds them to the whole. -/
theorem handles_modify (new : List Handle)
    (hf : ∀ bs, (handlesAll (f bs)).Perm (new ++ handlesAll bs)) (b : Branch)
    (hn : b.handles.Nodup) (hh : h ∈ b.handles) :
    (modify h f b).handles.Perm (new ++ b.handles) := by
  obtain ⟨c, bs⟩ := b
  obtain ⟨hc, hbs⟩ := List.nodup_cons.mp hn
  have hmiddle : (c :: (new ++ handlesAll bs)).Perm (new ++ c :: handlesAll bs) :=
    List.perm_middle.symm
  rw [modify, handles, handles]
  by_cases hch : c = h
  · subst hch
    rw [if_pos rfl, modifyAll_of_not_mem bs hc]
    exact ((hf bs).cons c).trans hmiddle
  · rw [if_neg hch]
    have hin : h ∈ handlesAll bs := (List.mem_cons.mp hh).resolve_left (Ne.symm hch)
    exact ((handlesAll_modifyAll new hf bs hbs hin).cons c).trans hmiddle
theorem handlesAll_modifyAll (new : List Handle)
    (hf : ∀ bs, (handlesAll (f bs)).Perm (new ++ handlesAll bs)) (bs : List Branch)
    (hn : (handlesAll bs).Nodup) (hh : h ∈ handlesAll bs) :
    (handlesAll (modifyAll h f bs)).Perm (new ++ handlesAll bs) := by
  match bs with
  | [] => simp [handlesAll] at hh
  | b :: bs =>
    obtain ⟨hb, hbs, hd⟩ := List.nodup_append.mp hn
    rw [modifyAll, handlesAll, handlesAll]
    by_cases hin : h ∈ b.handles
    · have hout : h ∉ handlesAll bs := fun ho => hd h hin h ho rfl
      rw [modifyAll_of_not_mem bs hout, ← List.append_assoc]
      exact (handles_modify new hf b hb hin).append_right _
    · have hin' : h ∈ handlesAll bs := (List.mem_append.mp hh).resolve_left hin
      rw [modify_of_not_mem b hin]
      refine ((handlesAll_modifyAll new hf bs hbs hin').append_left b.handles).trans ?_
      rw [← List.append_assoc, ← List.append_assoc]
      exact List.perm_append_comm.append_right _
end

mutual
/-- A change below `h` that the search for `k` does not see changes only the branch found. -/
theorem find?_modify
    (hf : ∀ bs, (handlesAll bs).Nodup → findAmong? k (f bs) = findAmong? k bs)
    (b : Branch) (hn : b.handles.Nodup) :
    find? k (modify h f b) = (find? k b).map (modify h f) := by
  obtain ⟨c, bs⟩ := b
  obtain ⟨hc, hbs⟩ := List.nodup_cons.mp hn
  rw [modify, find?, find?]
  by_cases hck : c = k
  · simp [hck, modify]
  · rw [if_neg hck, if_neg hck]
    by_cases hch : c = h
    · subst hch
      rw [if_pos rfl, modifyAll_of_not_mem bs hc, hf bs hbs]
      cases hfind : findAmong? k bs with
      | none => rfl
      | some d =>
        have hsub := (findAmong?_eq_some bs hfind).2.subset
        rw [Option.map_some, modify_of_not_mem d fun hd => hc (hsub hd)]
    · rw [if_neg hch, findAmong?_modifyAll hf bs hbs]
theorem findAmong?_modifyAll
    (hf : ∀ bs, (handlesAll bs).Nodup → findAmong? k (f bs) = findAmong? k bs)
    (bs : List Branch) (hn : (handlesAll bs).Nodup) :
    findAmong? k (modifyAll h f bs) = (findAmong? k bs).map (modify h f) := by
  match bs with
  | [] => rfl
  | b :: bs =>
    obtain ⟨hb, hbs, -⟩ := List.nodup_append.mp hn
    rw [modifyAll, findAmong?, findAmong?, find?_modify hf b hb, findAmong?_modifyAll hf bs hbs,
      Option.map_or]
end

theorem findAmong?_append (bs cs : List Branch) :
    findAmong? k (bs ++ cs) = (findAmong? k bs).or (findAmong? k cs) := by
  induction bs with
  | nil => rfl
  | cons b bs ih => rw [List.cons_append, findAmong?, findAmong?, ih, Option.or_assoc]

theorem findAmong?_append_leaf (bs : List Branch) (hk : k ≠ h) :
    findAmong? k (bs ++ [leaf h]) = findAmong? k bs := by
  rw [findAmong?_append, findAmong?, leaf, find?, if_neg (Ne.symm hk)]
  simp [findAmong?]

mutual
/-- A new leaf is found where it was put. -/
theorem find?_modify_append (b : Branch) (hn : b.handles.Nodup) (hk : k ∈ b.handles)
    (hh : h ∉ b.handles) : find? h (modify k (· ++ [leaf h]) b) = some (leaf h) := by
  obtain ⟨c, bs⟩ := b
  obtain ⟨hc, hbs⟩ := List.nodup_cons.mp hn
  simp only [handles, List.mem_cons, not_or] at hh
  rw [modify, find?, if_neg (Ne.symm hh.1)]
  by_cases hck : c = k
  · subst hck
    rw [if_pos rfl, modifyAll_of_not_mem bs hc, findAmong?_append, findAmong?_eq_none bs hh.2]
    simp [findAmong?, find?, leaf]
  · rw [if_neg hck]
    exact findAmong?_modifyAll_append bs hbs
      ((List.mem_cons.mp hk).resolve_left (Ne.symm hck)) hh.2
theorem findAmong?_modifyAll_append (bs : List Branch) (hn : (handlesAll bs).Nodup)
    (hk : k ∈ handlesAll bs) (hh : h ∉ handlesAll bs) :
    findAmong? h (modifyAll k (· ++ [leaf h]) bs) = some (leaf h) := by
  match bs with
  | [] => simp [handlesAll] at hk
  | b :: bs =>
    obtain ⟨hb, hbs, hd⟩ := List.nodup_append.mp hn
    simp only [handlesAll, List.mem_append, not_or] at hh
    rw [modifyAll, findAmong?]
    by_cases hin : k ∈ b.handles
    · rw [find?_modify_append b hb hin hh.1, Option.some_or]
    · rw [modify_of_not_mem b hin, find?_eq_none b hh.1, Option.none_or]
      exact findAmong?_modifyAll_append bs hbs ((List.mem_append.mp hk).resolve_left hin) hh.2
end

theorem handle_modify (b : Branch) : (modify h f b).handle = b.handle := by
  cases b
  rfl

theorem modifyAll_map_handle (bs : List Branch) :
    (modifyAll h f bs).map handle = bs.map handle := by
  induction bs with
  | nil => rfl
  | cons b bs ih => simp [modifyAll, handle_modify, ih]

theorem childHandles_modify_of_ne (hb : b.handle ≠ h) :
    (modify h f b).childHandles = b.childHandles := by
  obtain ⟨c, bs⟩ := b
  have hc : c ≠ h := hb
  rw [modify, if_neg hc, childHandles, childHandles]
  exact modifyAll_map_handle bs

theorem childHandles_modify_self (hn : b.handles.Nodup) (hb : b.handle = h) :
    (modify h f b).childHandles = (f b.children).map handle := by
  obtain ⟨c, bs⟩ := b
  have hc : c = h := hb
  subst hc
  rw [modify, modifyAll_of_not_mem bs (List.nodup_cons.mp hn).1, if_pos rfl]
  rfl

/-! ## Removing a branch -/

theorem removeAll_cons_of_ne (hb : b.handle ≠ h) :
    removeAll h (b :: bs) = remove h b :: removeAll h bs := by
  rw [removeAll, if_neg hb]

mutual
theorem remove_of_not_mem (b : Branch) (hh : h ∉ b.handles) : remove h b = b := by
  obtain ⟨c, bs⟩ := b
  rw [remove, removeAll_of_not_mem bs fun hin => hh (List.mem_cons_of_mem c hin)]
theorem removeAll_of_not_mem (bs : List Branch) (hh : h ∉ handlesAll bs) :
    removeAll h bs = bs := by
  match bs with
  | [] => rfl
  | b :: bs =>
    simp only [handlesAll, List.mem_append, not_or] at hh
    have hb : b.handle ≠ h := fun he => hh.1 (he ▸ handle_mem_handles b)
    rw [removeAll_cons_of_ne hb, remove_of_not_mem b hh.1, removeAll_of_not_mem bs hh.2]
end

mutual
/-- Removing a branch removes its handles and no others. -/
theorem handles_remove (b : Branch) (hn : b.handles.Nodup) (hb : b.handle ≠ h)
    (hf : find? h b = some c) : b.handles.Perm (c.handles ++ (remove h b).handles) := by
  obtain ⟨d, bs⟩ := b
  have hd : d ≠ h := hb
  rw [find?, if_neg hd] at hf
  rw [remove, handles, handles]
  have hp := handlesAll_removeAll bs (List.nodup_cons.mp hn).2 hf
  exact (hp.cons d).trans List.perm_middle.symm
theorem handlesAll_removeAll (bs : List Branch) (hn : (handlesAll bs).Nodup)
    (hf : findAmong? h bs = some c) :
    (handlesAll bs).Perm (c.handles ++ handlesAll (removeAll h bs)) := by
  match bs with
  | [] => simp [findAmong?] at hf
  | b :: bs =>
    obtain ⟨hb, hbs, hd⟩ := List.nodup_append.mp hn
    rw [findAmong?] at hf
    by_cases hin : h ∈ b.handles
    · have hout : h ∉ handlesAll bs := fun ho => hd h hin h ho rfl
      obtain ⟨e, he⟩ := Option.isSome_iff_exists.mp (find?_isSome b hin)
      rw [he, Option.some_or] at hf
      cases hf
      by_cases hbh : b.handle = h
      · rw [removeAll, if_pos hbh, removeAll_of_not_mem bs hout]
        obtain ⟨f, fs⟩ := b
        have : f = h := hbh
        rw [find?, if_pos this] at he
        cases he
        exact List.Perm.refl _
      · rw [removeAll_cons_of_ne hbh, removeAll_of_not_mem bs hout, handlesAll, handlesAll,
          ← List.append_assoc]
        exact (handles_remove b hb hbh he).append_right _
    · have hbh : b.handle ≠ h := fun he => hin (he ▸ handle_mem_handles b)
      rw [find?_eq_none b hin, Option.none_or] at hf
      rw [removeAll_cons_of_ne hbh, remove_of_not_mem b hin, handlesAll, handlesAll]
      refine ((handlesAll_removeAll bs hbs hf).append_left b.handles).trans ?_
      rw [← List.append_assoc, ← List.append_assoc]
      exact List.perm_append_comm.append_right _
end

mutual
/-- A branch outside of the removed one is found as before, without the removed one. -/
theorem find?_remove (b : Branch) (hn : b.handles.Nodup) (hkh : k ≠ h)
    (hk : ∀ c, find? h b = some c → k ∉ c.handles) :
    find? k (remove h b) = (find? k b).map (remove h) := by
  obtain ⟨d, bs⟩ := b
  obtain ⟨hd, hbs⟩ := List.nodup_cons.mp hn
  rw [remove, find?, find?]
  by_cases hdk : d = k
  · simp [hdk, remove]
  · rw [if_neg hdk, if_neg hdk]
    by_cases hdh : d = h
    · subst hdh
      have hout : k ∉ handlesAll bs := fun hin =>
        hk (node d bs) (by rw [find?, if_pos rfl]) (List.mem_cons_of_mem d hin)
      rw [removeAll_of_not_mem bs hd, findAmong?_eq_none bs hout, Option.map_none]
    · refine findAmong?_removeAll bs hbs hkh fun c hc => hk c ?_
      rw [find?, if_neg hdh, hc]
theorem findAmong?_removeAll (bs : List Branch) (hn : (handlesAll bs).Nodup) (hkh : k ≠ h)
    (hk : ∀ c, findAmong? h bs = some c → k ∉ c.handles) :
    findAmong? k (removeAll h bs) = (findAmong? k bs).map (remove h) := by
  match bs with
  | [] => rfl
  | b :: bs =>
    obtain ⟨hb, hbs, hd⟩ := List.nodup_append.mp hn
    have hkb (c : Branch) (hc : find? h b = some c) : k ∉ c.handles :=
      hk c (by rw [findAmong?, hc, Option.some_or])
    have hkbs (c : Branch) (hc : findAmong? h bs = some c) : k ∉ c.handles := by
      refine hk c ?_
      have hin : h ∈ handlesAll bs :=
        (findAmong?_eq_some bs hc).2.subset ((findAmong?_eq_some bs hc).1 ▸ handle_mem_handles c)
      rw [findAmong?, find?_eq_none b fun ho => hd h ho h hin rfl, Option.none_or, hc]
    have hrest := findAmong?_removeAll bs hbs hkh hkbs
    by_cases hbh : b.handle = h
    · have hfind : find? h b = some b := by
        obtain ⟨d, ds⟩ := b
        rw [find?, if_pos (show d = h from hbh)]
      rw [removeAll, if_pos hbh, findAmong?, find?_eq_none b (hkb b hfind), Option.none_or, hrest]
    · rw [removeAll_cons_of_ne hbh, findAmong?, findAmong?, find?_remove b hb hkh hkb, hrest,
        Option.map_or]
end

theorem handle_remove (b : Branch) : (remove h b).handle = b.handle := by
  cases b
  rfl

theorem childHandles_remove (b : Branch) :
    (remove h b).childHandles = b.childHandles.filter (· ≠ h) := by
  obtain ⟨d, bs⟩ := b
  show (removeAll h bs).map handle = (bs.map handle).filter (· ≠ h)
  induction bs with
  | nil => rfl
  | cons b bs ih =>
    by_cases hb : b.handle = h
    · rw [removeAll, if_pos hb, ih]
      simp [hb]
    · rw [removeAll_cons_of_ne hb, List.map_cons, ih]
      simp [hb, handle_remove]

/-! ## Levels and siblings -/

mutual
theorem depths_map_snd (b : Branch) (d : Nat) : (depths d b).map (·.2) = b.handles := by
  obtain ⟨c, bs⟩ := b
  rw [depths, handles, List.map_cons, depthsAll_map_snd bs]
theorem depthsAll_map_snd (bs : List Branch) (d : Nat) :
    (depthsAll d bs).map (·.2) = handlesAll bs := by
  match bs with
  | [] => rfl
  | b :: bs => rw [depthsAll, handlesAll, List.map_append, depths_map_snd b, depthsAll_map_snd bs]
end

theorem levels_perm (b : Branch) : b.levels.Perm b.handles := by
  have hp := (List.mergeSort_perm (depths 0 b) fun a c => a.1 ≤ c.1).map (·.2)
  rwa [depths_map_snd] at hp

theorem relocate_perm (h : Handle) (i : Nat) (bs : List Branch) : (relocate h i bs).Perm bs := by
  have hsplit : (relocate h i bs).Perm
      ((bs.filter fun b => b.handle = h) ++ bs.filter fun b => b.handle ≠ h) := by
    unfold relocate
    refine (List.perm_append_comm.append_right _).trans ?_
    rw [List.append_assoc, List.take_append_drop]
  refine hsplit.trans ?_
  simpa using List.filter_append_perm (fun b : Branch => decide (b.handle = h)) bs

end ScreenMarkup.Branch
