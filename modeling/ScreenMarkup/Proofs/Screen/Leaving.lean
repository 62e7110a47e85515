import ScreenMarkup.Proofs.Screen.Planting
import ScreenMarkup.Proofs.Screen.Restyle
import ScreenMarkup.Proofs.Screen.Stacking

/-!
# What is left alone

Laying out, building and stacking work on a few widgets at a time. `Leaves`
names those that they may change or put something into; all others stay as
they are, with the same inside of them.
-/

set_option autoImplicit false

namespace ScreenMarkup.Screen

variable {s t u : Screen} {h k p : Handle} {H K P Q : Handle → Prop}

/-- Of the widgets of `s` only those in `H` are changed, or have other children. -/
structure Leaves (H : Handle → Prop) (s t : Screen) : Prop where
  widget : ∀ k, s.isLive k = true → ¬ H k → t.widget? k = s.widget? k
  children : ∀ k, s.isLive k = true → ¬ H k → t.children k = s.children k

namespace Leaves

theorem refl (s : Screen) : Leaves H s s := ⟨fun _ _ _ => rfl, fun _ _ _ => rfl⟩

theorem isLive (hl : Leaves H s t) (hk : s.isLive k = true) (hn : ¬ H k) : t.isLive k = true := by
  rw [Screen.isLive, hl.widget k hk hn]
  exact hk

theorem trans (h₁ : Leaves H s t) (h₂ : Leaves K t u) (hK : ∀ k, s.isLive k = true → K k → H k) :
    Leaves H s u where
  widget k hk hn :=
    (h₂.widget k (h₁.isLive hk hn) fun hin => hn (hK k hk hin)).trans (h₁.widget k hk hn)
  children k hk hn :=
    (h₂.children k (h₁.isLive hk hn) fun hin => hn (hK k hk hin)).trans (h₁.children k hk hn)

theorem mono (hl : Leaves H s t) (hH : ∀ k, s.isLive k = true → H k → K k) : Leaves K s t :=
  ⟨fun k hk hn => hl.widget k hk fun hin => hn (hH k hk hin),
    fun k hk hn => hl.children k hk fun hin => hn (hH k hk hin)⟩

theorem style (hl : Leaves H s t) (hk : s.isLive k = true) (hn : ¬ H k) :
    t.style k = s.style k := by
  rw [Screen.style, Screen.style, hl.widget k hk hn]

theorem activeTile? (hl : Leaves H s t) (hk : s.isLive k = true) (hn : ¬ H k) :
    t.activeTile? k = s.activeTile? k := by
  rw [Screen.activeTile?, Screen.activeTile?, hl.widget k hk hn]

end Leaves

theorem Touches.leaves {R : Widget → Widget → Prop} (ht : Touches H R s t) : Leaves H s t :=
  ⟨fun k _ hn => ht.frame k hn, fun k _ _ => ht.children k⟩

theorem Sound.leaves_create (hs : s.Sound) (kind : WidgetKind) (hp : s.isLive p = true) :
    Leaves (· = p) s (s.create kind p).2 where
  widget k hk _ := by rw [hs.widget?_create, if_neg (hs.create_ne kind p hk)]
  children k _ hn := by
    have hholder : s.holder p = p := if_pos hp
    exact hs.children_create kind p (hholder.symm ▸ hn)

/-- A new widget, and changes of it. -/
theorem Sound.leaves_make (hs : s.Sound) {kind : WidgetKind} (hp : s.isLive p = true)
    (hc : s.create kind p = (h, t)) (hu : Leaves (· = h) t u) : Leaves (· = p) s u := by
  have hmade := hs.leaves_create kind hp
  have hne := hs.create_ne kind p (k := h)
  rw [hc] at hmade hne
  exact hmade.trans hu fun k hk he => absurd rfl (hne (he ▸ hk))

theorem Sound.leaves_raise (hs : s.Sound) (hp : s.parent? h = some p) :
    Leaves (· = p) s (s.raise h) where
  widget k _ _ := widget?_raise s h k
  children k _ hn := by
    rw [hs.children_raise]
    refine toFront_of_not_mem fun hin => hn ?_
    exact Option.some.inj ((hs.mem_children_iff.mp hin).symm.trans hp)

theorem foldl_of_not_mem {f : List Handle → Handle → List Handle} {cs hs : List Handle}
    (hf : ∀ cs h, h ∉ cs → f cs h = cs) (hh : ∀ h ∈ hs, h ∉ cs) : hs.foldl f cs = cs := by
  induction hs with
  | nil => rfl
  | cons h hs ih =>
    rw [List.foldl_cons, hf cs h (hh h List.mem_cons_self)]
    exact ih fun k hk => hh k (List.mem_cons_of_mem h hk)

/-- Stacking leaves a widget alone that no control has inside. -/
theorem WellFormed.leaves_stack (hs : s.WellFormed) (cs : Controls) :
    Leaves (fun k => ∃ c ∈ cs, c.isPage = false ∧ c.target ∈ s.children k) s (s.stack cs) where
  widget k _ _ := (hs.extends_stack cs).2 k
  children k _ hn := by
    have hmoved {moves : List (Int × Handle)} {chosen : Int → Bool} {key : Int → Int}
        (he : moves = cs.moves chosen key) : ∀ h ∈ moves.map (·.2), h ∉ s.children k := by
      rintro _ hh hin
      obtain ⟨e, hem, rfl⟩ := List.mem_map.mp hh
      obtain ⟨c, hc, ⟨hp, -⟩, rfl⟩ := Controls.mem_moves.mp (he ▸ hem)
      exact hn ⟨c, hc, hp, hin⟩
    have hsound := hs.toSound
    rw [Screen.stack, (hsound.foldl_moveTo _).children_foldl_raise, hsound.children_foldl_moveTo,
      foldl_of_not_mem (fun _ _ => toBack_of_not_mem) (hmoved (sunken_eq cs)),
      foldl_of_not_mem (fun _ _ => toFront_of_not_mem) (hmoved (raised_eq cs))]

/-- What is planted elsewhere leaves a widget alone. -/
theorem Plants.leaves {ps : List (Handle × Handle)} (hp : Plants P Q ps s t) (hs : s.Sound)
    (he : Extends s t) : Leaves (fun k => P k ∨ Q k) s t where
  widget k hk _ := by
    obtain ⟨w, hw⟩ := isLive_iff.mp hk
    rw [he.widget k w hw, hw]
  children k hk hn := by
    rw [not_or] at hn
    obtain ⟨new, hnew, hfresh⟩ := hs.exists_children hp.sound hp.grows k
    have hnone : new = [] := by
      refine List.eq_nil_iff_forall_not_mem.mpr fun c hc => ?_
      have hin : c ∈ t.children k := hnew ▸ List.mem_append_right _ hc
      rcases hp.covers k c hin with hl | hlisted | hinside | hq
      · rw [hfresh c hc] at hl
        cases hl
      · have hbelow : c ∈ below ps k := by
          rw [← hp.listed k]
          exact List.mem_filter.mpr ⟨hin, decide_eq_true hlisted⟩
        exact hn.1 (hp.within _ (mem_below.mp hbelow) hk)
      · rw [hp.isLive_eq_false hinside] at hk
        cases hk
      · exact hn.2 hq
    rw [hnew, hnone, List.append_nil]

end ScreenMarkup.Screen
