import ScreenMarkup.Proofs.Screen.Deletion
import ScreenMarkup.Screen.Arena

/-!
# Walks along links

A walk with a stack and the recursion over a tree list the same handles in the
same order. A stack is worth what its members are worth, the top first: what a
walk gives for it is the listing of each member followed by what is below it.
Walks end exactly where there is such a listing, which is a finite thing.
-/

set_option autoImplicit false

namespace ScreenMarkup

variable {children children' : Handle → List Handle} {h k : Handle} {b c : Branch} {bs : List Branch}

/-! ## Listings -/

/-- Some handles in order, each followed by the listing of its children. -/
inductive Lists (children : Handle → List Handle) : List Handle → List Handle → Prop
  | nil : Lists children [] []
  | cons {h : Handle} {hs below rest : List Handle} (inner : Lists children (children h) below)
      (outer : Lists children hs rest) : Lists children (h :: hs) (h :: (below ++ rest))

variable {hs ks ws stack out result : List Handle}

theorem Lists.append (hu : Lists children hs ws) (hv : Lists children ks out) :
    Lists children (hs ++ ks) (ws ++ out) := by
  induction hu with
  | nil => exact hv
  | @cons h hs below rest inner _ _ ih =>
    rw [List.cons_append, List.cons_append, List.append_assoc]
    exact .cons inner ih

theorem lists_append (hw : Lists children (hs ++ ks) ws) :
    ∃ us vs, Lists children hs us ∧ Lists children ks vs ∧ ws = us ++ vs := by
  induction hs generalizing ws with
  | nil => exact ⟨[], ws, .nil, hw, rfl⟩
  | cons h hs ih =>
    rw [List.cons_append] at hw
    cases hw with
    | @cons _ _ below rest inner outer =>
      obtain ⟨us, vs, hu, hv, rfl⟩ := ih outer
      exact ⟨h :: (below ++ us), vs, .cons inner hu, hv, by simp⟩

/-! ## Walks -/

namespace Arena

variable {a : Arena}

/-- A walk along the members of a stack from some on leaves the stack that lies below them. -/
theorem walk?_append (hw : Lists a.childList hs ws) (stack out : List Handle) :
    a.walk? (stack ++ hs.reverse) out = a.walk? stack (out ++ ws) := by
  induction hw generalizing stack out with
  | nil => simp
  | @cons h hs below rest _ _ ih₁ ih₂ =>
    have htop : stack ++ (h :: hs).reverse = (stack ++ hs.reverse) ++ [h] := by simp
    rw [htop, walk?, List.getLast?_concat, List.dropLast_concat]
    show a.walk? (stack ++ hs.reverse ++ (a.childList h).reverse) (out ++ [h]) = _
    rw [ih₁, ih₂]
    simp

theorem walk?_nil (out : List Handle) : a.walk? [] out = some out := by
  rw [walk?]
  rfl

/-- A walk comes to an end exactly when what its stack is worth can be listed, and gives that. -/
theorem walk?_eq_some : a.walk? stack out = some result ↔
    ∃ ws, Lists a.childList stack.reverse ws ∧ result = out ++ ws := by
  constructor
  · refine walk?.partial_correctness a
      (fun stack out result => ∃ ws, Lists a.childList stack.reverse ws ∧ result = out ++ ws)
      ?_ stack out result
    intro walk ih stack out result hresult
    split at hresult
    · next h hh =>
      obtain ⟨ws, hw, rfl⟩ := ih _ _ _ hresult
      obtain ⟨stack, rfl⟩ := List.getLast?_eq_some_iff.mp hh
      rw [List.dropLast_concat, List.reverse_append, List.reverse_reverse] at hw
      obtain ⟨below, rest, hbelow, hrest, rfl⟩ := lists_append hw
      refine ⟨h :: (below ++ rest), ?_, by simp⟩
      rw [List.reverse_concat]
      exact .cons hbelow hrest
    · next hh =>
      cases hresult
      rw [List.getLast?_eq_none_iff.mp hh]
      exact ⟨[], .nil, (List.append_nil _).symm⟩
  · rintro ⟨ws, hw, rfl⟩
    rw [← List.nil_append stack, ← stack.reverse_reverse, walk?_append hw, walk?_nil]

end Arena

/-! ## Trees along links -/

namespace Branch

mutual
/-- The links lead from each handle of a branch to those right below it. -/
def Fits (children : Handle → List Handle) : Branch → Prop
  | node h bs => children h = bs.map handle ∧ FitsAll children bs
def FitsAll (children : Handle → List Handle) : List Branch → Prop
  | [] => True
  | b :: bs => Fits children b ∧ FitsAll children bs
end

theorem fitsAll_append (bs cs : List Branch) :
    FitsAll children (bs ++ cs) ↔ FitsAll children bs ∧ FitsAll children cs := by
  induction bs with
  | nil => simp [FitsAll]
  | cons b bs ih => rw [List.cons_append, FitsAll, FitsAll, ih, and_assoc]

mutual
theorem Fits.congr (b : Branch) (hf : Fits children b)
    (hc : ∀ k ∈ b.handles, children' k = children k) : Fits children' b := by
  obtain ⟨h, bs⟩ := b
  refine ⟨(hc h List.mem_cons_self).trans hf.1, FitsAll.congr bs hf.2 fun k hk => ?_⟩
  exact hc k (List.mem_cons_of_mem h hk)
theorem FitsAll.congr (bs : List Branch) (hf : FitsAll children bs)
    (hc : ∀ k ∈ handlesAll bs, children' k = children k) : FitsAll children' bs := by
  match bs with
  | [] => trivial
  | b :: bs =>
    exact ⟨Fits.congr b hf.1 fun k hk => hc k (List.mem_append_left _ hk),
      FitsAll.congr bs hf.2 fun k hk => hc k (List.mem_append_right _ hk)⟩
end

mutual
theorem fits (b : Branch) (hn : b.handles.Nodup)
    (hc : ∀ k c, find? k b = some c → children k = c.childHandles) : Fits children b := by
  obtain ⟨h, bs⟩ := b
  obtain ⟨hh, hbs⟩ := List.nodup_cons.mp hn
  refine ⟨hc h (node h bs) (by rw [find?, if_pos rfl]), fitsAll bs hbs fun k c hk => ?_⟩
  have hne : h ≠ k := by
    rintro rfl
    obtain ⟨hck, hsub⟩ := findAmong?_eq_some bs hk
    exact hh (hck ▸ hsub.subset c.handle_mem_handles)
  exact hc k c (by rw [find?, if_neg hne, hk])
theorem fitsAll (bs : List Branch) (hn : (handlesAll bs).Nodup)
    (hc : ∀ k c, findAmong? k bs = some c → children k = c.childHandles) :
    FitsAll children bs := by
  match bs with
  | [] => trivial
  | b :: bs =>
    obtain ⟨hb, hbs, hapart⟩ := List.nodup_append.mp hn
    refine ⟨fits b hb fun k c hk => ?_, fitsAll bs hbs fun k c hk => ?_⟩
    · exact hc k c (by rw [findAmong?, hk, Option.some_or])
    · have hout : k ∉ b.handles := by
        obtain ⟨hck, hsub⟩ := findAmong?_eq_some bs hk
        exact fun hin => hapart k hin k (hck ▸ hsub.subset c.handle_mem_handles) rfl
      exact hc k c (by rw [findAmong?, find?_eq_none b hout, Option.none_or, hk])
end

mutual
/-- The handles of a tree in document order are the listing along its links. -/
theorem Fits.lists (b : Branch) (hf : Fits children b) :
    Lists children [b.handle] b.handles := by
  obtain ⟨h, bs⟩ := b
  have hbelow : Lists children (children h) (handlesAll bs) := hf.1 ▸ FitsAll.lists bs hf.2
  show Lists children [h] (h :: handlesAll bs)
  simpa using hbelow.cons .nil
theorem FitsAll.lists (bs : List Branch) (hf : FitsAll children bs) :
    Lists children (bs.map handle) (handlesAll bs) := by
  match bs with
  | [] => exact .nil
  | b :: bs => exact (Fits.lists b hf.1).append (FitsAll.lists bs hf.2)
end

end Branch

namespace Screen

variable {s : Screen}

/-- The lists of children of a sound screen are its tree. -/
theorem Sound.fits (hs : s.Sound) (hb : s.branch? h = some b) : b.Fits s.children := by
  have hn : b.handles.Nodup := (Branch.find?_eq_some s.shape hb).2.nodup hs.nodup
  refine Branch.fits b hn fun k c hk => ?_
  rw [children_eq, branch?, Branch.find?_trans s.shape hs.nodup hb hk]
  rfl

theorem Sound.lists_descendants (hs : s.Sound) (hl : s.isLive h = true) :
    Lists s.children (s.children h) (s.descendants h) := by
  obtain ⟨b, hb⟩ := hs.exists_branch hl
  obtain ⟨k, bs⟩ := b
  have hf := hs.fits hb
  have hk : k = h := (Branch.find?_eq_some s.shape hb).1
  rw [descendants_eq hb, ← hk, hf.1]
  exact hf.2.lists

end Screen
end ScreenMarkup
