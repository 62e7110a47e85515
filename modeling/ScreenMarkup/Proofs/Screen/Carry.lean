import ScreenMarkup.Proofs.Screen.Later
import ScreenMarkup.Proofs.Screen.Paint

/-!
# What steps leave and add

A step that makes widgets of other kinds, or changes what is there, leaves
every widget that rules and inline attributes style where it is and adds none.
Of such steps those that are no paint leave its paint too.
-/

set_option autoImplicit false

namespace ScreenMarkup

/-- The kinds of widgets whose looks rules and inline attributes decide. -/
def WidgetKind.isStyled : WidgetKind → Bool
  | label | button | switch | slider | textArea | spanGroup => true
  | _ => false

namespace Screen

variable {s t u : Screen} {h k : Handle}

/-- Every widget stays where it stands, and stays of its kind, if `s` was sound. -/
def Upholds (s t : Screen) : Prop :=
  s.Sound → Stands s t ∧ ∀ h k, s.kind? h = some k → t.kind? h = some k

theorem Upholds.refl (s : Screen) : Upholds s s := fun hs => ⟨Later.refl s hs, fun _ _ hk => hk⟩

theorem Upholds.trans (h₁ : Upholds s t) (h₂ : Upholds t u) : Upholds s u := by
  intro hs
  obtain ⟨st, hk₁⟩ := h₁ hs
  obtain ⟨-, hk₂⟩ := h₂ st.sound
  have su : Later s u := Later.trans (fun hs => (h₁ hs).1) fun ht => (h₂ ht).1
  exact ⟨su hs, fun h k hk => hk₂ h k (hk₁ h k hk)⟩

/-- No widget of a styled kind is new. -/
def AddsNone (s t : Screen) : Prop :=
  ∀ h k, t.kind? h = some k → k.isStyled = true → s.kind? h = some k

theorem AddsNone.trans (h₁ : AddsNone s t) (h₂ : AddsNone t u) : AddsNone s u :=
  fun h k hk hn => h₁ h k (h₂ h k hk hn) hn

/-- Every widget stays, and none of a styled kind is new. -/
structure Carries (s t : Screen) : Prop where
  upholds : Upholds s t
  addsNone : s.Sound → AddsNone s t

theorem Carries.sound (hc : Carries s t) (hs : s.Sound) : t.Sound := (hc.upholds hs).1.sound

theorem Carries.refl (s : Screen) : Carries s s := ⟨Upholds.refl s, fun _ _ _ hk _ => hk⟩

theorem Carries.trans (h₁ : Carries s t) (h₂ : Carries t u) : Carries s u where
  upholds := h₁.upholds.trans h₂.upholds
  addsNone hs := (h₁.addsNone hs).trans (h₂.addsNone (h₁.sound hs))

theorem Carries.foldl {β : Type} {f : Screen → β → Screen} (hf : ∀ s b, Carries s (f s b))
    (bs : List β) (s : Screen) : Carries s (bs.foldl f s) := by
  induction bs generalizing s with
  | nil => exact refl s
  | cons b bs ih => exact (hf s b).trans (ih (f s b))

theorem Carries.ite {c : Prop} [Decidable c] (ht : Carries s t) :
    Carries s (if c then t else s) := by
  split
  · exact ht
  · exact refl s

/-- Steps that make no widget. -/
theorem carries_of_kind (hl : Later s t) (hkind : ∀ h, t.kind? h = s.kind? h) : Carries s t where
  upholds hs := ⟨hl hs, fun h _ hk => (hkind h).trans hk⟩
  addsNone _ h _ hk _ := (hkind h).symm.trans hk

theorem carries_modify {f : Widget → Widget} (hf : ∀ w, (f w).kind = w.kind) :
    Carries s (s.modify h f) := by
  have ht : Touches (· = h) Widget.SameKind s (s.modify h f) := touches_modify (fun _ => rfl) hf
  exact carries_of_kind (later_modify s h f) (ht.kind? fun _ _ p => p)

theorem carries_raise (s : Screen) (h : Handle) : Carries s (s.raise h) :=
  carries_of_kind (later_raise s h) fun k => by rw [kind?, widget?_raise, kind?]

theorem Restyles.kind? {H : Handle → Prop} (ht : Restyles H s t) (k : Handle) :
    t.kind? k = s.kind? k :=
  Touches.kind? ht (fun _ _ p => p.sameKind) k

theorem carries_styling (h : Handle) : Styling h Carries where
  refl := Carries.refl
  trans := Carries.trans
  setPos _ _ _ := carries_modify fun _ => rfl
  setSize _ _ _ := carries_modify fun w => congrArg WidgetContent.kind (w.setSize_content _ _ _)
  applyStyle _ _ := carries_modify fun _ => rfl

theorem Sound.kind?_create (hs : s.Sound) (kind : WidgetKind) (parent h : Handle) :
    (s.create kind parent).2.kind? h =
      if h = (s.create kind parent).1 then some kind else s.kind? h := by
  rw [kind?, hs.widget?_create]
  split <;> rfl

theorem upholds_create (s : Screen) (kind : WidgetKind) (parent : Handle) :
    Upholds s (s.create kind parent).2 := by
  intro hs
  refine ⟨later_create s kind parent hs, fun h k hk => ?_⟩
  have hne := hs.create_ne kind parent (isLive_of_kind? hk)
  rw [hs.kind?_create, if_neg hne]
  exact hk

theorem carries_create {kind : WidgetKind} (hn : kind.isStyled = false) (s : Screen)
    (parent : Handle) : Carries s (s.create kind parent).2 where
  upholds := upholds_create s kind parent
  addsNone hs h k hk hstyled := by
    rw [hs.kind?_create] at hk
    split at hk
    · cases hk
      rw [hn] at hstyled
      cases hstyled
    · exact hk

theorem carries_align (s : Screen) (h : Handle) (a : Align) (shift : Offset) :
    Carries s (s.align h a shift) :=
  carries_modify fun w => congrArg WidgetContent.kind (w.align_content (s.parentSize? h) a shift)

theorem carries_configure (s : Screen) (h : Handle) (setting : Setting) :
    Carries s (s.configure h setting) :=
  carries_modify fun w => congrArg WidgetContent.kind (w.configure_content setting)

theorem carries_setText (s : Screen) (h : Handle) (text : String) :
    Carries s (s.setText h text) :=
  carries_modify (f := ({ · with text := text })) fun _ => rfl

/-- Steps that are no paint. -/
structure Settles (s t : Screen) : Prop where
  carries : Carries s t
  paint : SamePaint s t

theorem Settles.refl (s : Screen) : Settles s s := ⟨Carries.refl s, SamePaint.refl s⟩

theorem Settles.trans (h₁ : Settles s t) (h₂ : Settles t u) : Settles s u :=
  ⟨h₁.carries.trans h₂.carries, h₁.paint.trans h₂.paint⟩

theorem Settles.ite {c : Prop} [Decidable c] (ht : Settles s t) :
    Settles s (if c then t else s) := by
  split
  · exact ht
  · exact refl s

theorem settles_align (s : Screen) (h : Handle) (a : Align) (shift : Offset) :
    Settles s (s.align h a shift) :=
  ⟨carries_align s h a shift, samePaint_align s h a shift⟩

theorem settles_setHidden (s : Screen) (h : Handle) (b : Bool) : Settles s (s.setHidden h b) :=
  ⟨carries_modify fun _ => rfl, samePaint_setHidden s h b⟩

end Screen
end ScreenMarkup
