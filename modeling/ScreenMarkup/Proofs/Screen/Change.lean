import ScreenMarkup.Control.Basic
import ScreenMarkup.Proofs.Screen.Tree
import ScreenMarkup.Session.Build.Inline

/-!
# Frames of screen operations

Most operations change a few widgets and leave the tree alone. `Touches`
says which widgets and how; `Retains` and `Extends` say what an operation
leaves of a screen that also grows.
-/

set_option autoImplicit false

namespace ScreenMarkup

/-- What a widget shows and holds, apart from its place, its looks and its settings. -/
structure WidgetContent where
  kind : WidgetKind
  hidden : Bool
  text : String
  checked : Bool
  value : Int
  low : Int
  high : Int
  spans : List Span

namespace Widget

def content (w : Widget) : WidgetContent where
  kind := w.kind
  hidden := w.hidden
  text := w.text
  checked := w.checked
  value := w.value
  low := w.low
  high := w.high
  spans := w.spans

def SameContent (w v : Widget) : Prop := v.content = w.content

def SameKind (w v : Widget) : Prop := v.kind = w.kind

theorem SameContent.sameKind {w v : Widget} (hc : SameContent w v) : SameKind w v :=
  congrArg WidgetContent.kind hc

theorem realign_content (w : Widget) (p : Option Size) : (w.realign p).content = w.content := by
  unfold realign
  split <;> rfl

theorem setSize_content (w : Widget) (p : Option Size) (x y : Int) :
    (w.setSize p x y).content = w.content :=
  realign_content _ p

theorem align_content (w : Widget) (p : Option Size) (a : Align) (shift : Offset) :
    (w.align p a shift).content = w.content :=
  realign_content _ p

theorem configure_content (w : Widget) (setting : Setting) :
    (w.configure setting).content = w.content := by
  cases setting <;> rfl

end Widget

namespace Screen

variable {s t u : Screen} {h k : Handle} {H K : Handle → Prop} {P Q : Widget → Widget → Prop}

/-- Only the widgets in `H` differ, each widget changes as `P` allows, and the tree stays. -/
structure Touches (H : Handle → Prop) (P : Widget → Widget → Prop) (s t : Screen) : Prop where
  shape : t.shape = s.shape
  free : t.free = s.free
  size : t.slots.size = s.slots.size
  widget : ∀ k, Option.Rel P (s.widget? k) (t.widget? k)
  frame : ∀ k, ¬ H k → t.widget? k = s.widget? k

theorem Touches.refl (hP : ∀ w, P w w) (s : Screen) : Touches H P s s where
  shape := rfl
  free := rfl
  size := rfl
  widget k := by
    cases s.widget? k with
    | none => exact .none
    | some w => exact .some (hP w)
  frame _ _ := rfl

theorem Touches.exists_widget (ht : Touches H P s t) {w : Widget} (hw : s.widget? k = some w) :
    ∃ v, t.widget? k = some v ∧ P w v := by
  have r := ht.widget k
  rw [hw] at r
  cases hu : t.widget? k with
  | none =>
    rw [hu] at r
    cases r
  | some v =>
    rw [hu] at r
    cases r with
    | some hp => exact ⟨v, rfl, hp⟩

theorem Touches.widget?_eq_none (ht : Touches H P s t) (hw : s.widget? k = none) :
    t.widget? k = none := by
  have r := ht.widget k
  rw [hw] at r
  cases hu : t.widget? k with
  | none => rfl
  | some v =>
    rw [hu] at r
    cases r

theorem Touches.trans (hP : ∀ w v x, P w v → P v x → P w x) (h₁ : Touches H P s t)
    (h₂ : Touches H P t u) : Touches H P s u where
  shape := h₂.shape.trans h₁.shape
  free := h₂.free.trans h₁.free
  size := h₂.size.trans h₁.size
  widget k := by
    cases hs : s.widget? k with
    | none =>
      rw [h₂.widget?_eq_none (h₁.widget?_eq_none hs)]
      exact .none
    | some w =>
      obtain ⟨v, hv, p⟩ := h₁.exists_widget hs
      obtain ⟨x, hx, q⟩ := h₂.exists_widget hv
      rw [hx]
      exact .some (hP w v x p q)
  frame k hk := (h₂.frame k hk).trans (h₁.frame k hk)

theorem Touches.mono (ht : Touches H P s t) (hH : ∀ k, H k → K k) (hP : ∀ w v, P w v → Q w v) :
    Touches K Q s t where
  shape := ht.shape
  free := ht.free
  size := ht.size
  widget k := by
    cases hs : s.widget? k with
    | none =>
      rw [ht.widget?_eq_none hs]
      exact .none
    | some w =>
      obtain ⟨v, hv, p⟩ := ht.exists_widget hs
      rw [hv]
      exact .some (hP w v p)
  frame k hk := ht.frame k fun hin => hk (hH k hin)

theorem touches_modify {f : Widget → Widget} (hrefl : ∀ w, P w w) (hf : ∀ w, P w (f w)) :
    Touches (· = h) P s (s.modify h f) where
  shape := modify_shape f
  free := modify_free f
  size := modify_size f
  widget k := by
    rw [widget?_modify]
    split
    · next hk =>
      subst hk
      cases s.widget? k with
      | none => exact .none
      | some w => exact .some (hf w)
    · cases s.widget? k with
      | none => exact .none
      | some w => exact .some (hrefl w)
  frame k hk := by rw [widget?_modify, if_neg hk]

theorem Touches.isLive (ht : Touches H P s t) (k : Handle) : t.isLive k = s.isLive k := by
  cases hw : s.widget? k with
  | none => rw [Screen.isLive, Screen.isLive, hw, ht.widget?_eq_none hw]
  | some w =>
    obtain ⟨v, hv, -⟩ := ht.exists_widget hw
    rw [Screen.isLive, Screen.isLive, hw, hv]
    rfl

theorem Touches.kind? (ht : Touches H P s t) (hP : ∀ w v, P w v → Widget.SameKind w v)
    (k : Handle) : t.kind? k = s.kind? k := by
  cases hw : s.widget? k with
  | none => rw [Screen.kind?, Screen.kind?, hw, ht.widget?_eq_none hw]
  | some w =>
    obtain ⟨v, hv, hp⟩ := ht.exists_widget hw
    rw [Screen.kind?, Screen.kind?, hw, hv, Option.map_some, Option.map_some, hP w v hp]

theorem Touches.children (ht : Touches H P s t) (k : Handle) : t.children k = s.children k :=
  children_congr ht.shape k

theorem Sound.touch (hs : s.Sound) (ht : Touches H P s t) : t.Sound where
  root := by
    rw [ht.shape]
    exact hs.root
  nodup := by
    rw [ht.shape]
    exact hs.nodup
  live k := by rw [ht.shape, ht.isLive, hs.live]
  freeLt := by
    rw [ht.free, ht.size]
    exact hs.freeLt
  freeDead i hi g := ht.widget?_eq_none (hs.freeDead i (ht.free ▸ hi) g)
  freeNodup := by
    rw [ht.free]
    exact hs.freeNodup

theorem WellFormed.touch (hs : s.WellFormed) (hP : ∀ w v, P w v → Widget.SameKind w v)
    (ht : Touches H P s t) : t.WellFormed where
  toSound := hs.toSound.touch ht
  top := by
    rw [ht.kind? hP]
    exact hs.top
  bare k c hk hc := by
    rw [ht.kind? hP] at hk
    rw [ht.children]
    exact hs.bare k c hk hc

/-! ## What is left of a screen that grows -/

/-- Every widget stays, and stays of its kind. -/
structure Retains (s t : Screen) : Prop where
  wellFormed : t.WellFormed
  kind : ∀ h k, s.kind? h = some k → t.kind? h = some k

/-- Every widget stays as it is. -/
structure Extends (s t : Screen) : Prop where
  wellFormed : t.WellFormed
  widget : ∀ h w, s.widget? h = some w → t.widget? h = some w

/-- Every widget stays, and shows what it showed. -/
structure Preserves (s t : Screen) : Prop where
  wellFormed : t.WellFormed
  content : ∀ h w, s.widget? h = some w → ∃ v, t.widget? h = some v ∧ v.content = w.content

theorem Preserves.refl (hs : s.WellFormed) : Preserves s s := ⟨hs, fun _ w hw => ⟨w, hw, rfl⟩⟩

theorem Preserves.trans (h₁ : Preserves s t) (h₂ : Preserves t u) : Preserves s u := by
  refine ⟨h₂.wellFormed, fun h w hw => ?_⟩
  obtain ⟨v, hv, hvw⟩ := h₁.content h w hw
  obtain ⟨x, hx, hxv⟩ := h₂.content h v hv
  exact ⟨x, hx, hxv.trans hvw⟩

theorem Preserves.retains (hp : Preserves s t) : Retains s t := by
  refine ⟨hp.wellFormed, fun h k hk => ?_⟩
  obtain ⟨w, hw, rfl⟩ := Option.map_eq_some_iff.mp hk
  obtain ⟨v, hv, hvw⟩ := hp.content h w hw
  rw [kind?, hv, Option.map_some]
  exact congrArg (some ·.kind) hvw

theorem Preserves.isHidden (hp : Preserves s t) (hl : s.isLive h = true) :
    t.isHidden h = s.isHidden h := by
  obtain ⟨w, hw⟩ := isLive_iff.mp hl
  obtain ⟨v, hv, hvw⟩ := hp.content h w hw
  rw [Screen.isHidden, Screen.isHidden, hw, hv]
  exact congrArg WidgetContent.hidden hvw

theorem Extends.preserves (he : Extends s t) : Preserves s t :=
  ⟨he.wellFormed, fun h w hw => ⟨w, he.widget h w hw, rfl⟩⟩

theorem Retains.refl (hs : s.WellFormed) : Retains s s := ⟨hs, fun _ _ hk => hk⟩

theorem Retains.trans (h₁ : Retains s t) (h₂ : Retains t u) : Retains s u :=
  ⟨h₂.wellFormed, fun h k hk => h₂.kind h k (h₁.kind h k hk)⟩

theorem Retains.isLive (hr : Retains s t) (hl : s.isLive h = true) : t.isLive h = true := by
  obtain ⟨k, hk⟩ := kind?_of_isLive hl
  exact isLive_of_kind? (hr.kind h k hk)

theorem Extends.refl (hs : s.WellFormed) : Extends s s := ⟨hs, fun _ _ hw => hw⟩

theorem Extends.trans (h₁ : Extends s t) (h₂ : Extends t u) : Extends s u :=
  ⟨h₂.wellFormed, fun h w hw => h₂.widget h w (h₁.widget h w hw)⟩

theorem Extends.retains (he : Extends s t) : Retains s t := by
  refine ⟨he.wellFormed, fun h k hk => ?_⟩
  obtain ⟨w, hw, rfl⟩ := Option.map_eq_some_iff.mp hk
  rw [kind?, he.widget h w hw, Option.map_some]

theorem Touches.retains (ht : Touches H P s t) (hP : ∀ w v, P w v → Widget.SameKind w v)
    (hs : s.WellFormed) : Retains s t :=
  ⟨hs.touch hP ht, fun k c hk => by rw [ht.kind? hP, hk]⟩

/-- Touching widgets that are new to a screen leaves the screen extended. -/
theorem Extends.touch (he : Extends s t) (hP : ∀ w v, P w v → Widget.SameKind w v)
    (ht : Touches H P t u) (hH : ∀ k, H k → s.widget? k = none) : Extends s u := by
  refine ⟨he.wellFormed.touch hP ht, fun h w hw => ?_⟩
  rw [ht.frame h fun hin => by simp [hH h hin] at hw]
  exact he.widget h w hw

theorem WellFormed.extends_create (hs : s.WellFormed) (kind : WidgetKind) {parent : Handle}
    (hp : ∀ k, s.kind? parent = some k → k.isContainer = true) :
    Extends s (s.create kind parent).2 := by
  refine ⟨hs.create kind hp, fun h w hw => ?_⟩
  have hne : h ≠ (s.create kind parent).1 := by
    rintro rfl
    rw [hs.create_fresh] at hw
    cases hw
  rw [hs.widget?_create, if_neg hne, hw]

theorem WellFormed.extends_stack (hs : s.WellFormed) (controls : Controls) :
    Extends s (s.stack controls) ∧ ∀ k, (s.stack controls).widget? k = s.widget? k := by
  have hmoves (es : List (Int × Handle)) (s : Screen) (hs : s.WellFormed) :
      (es.foldl (fun s e => s.moveTo e.2 0) s).WellFormed ∧
        ∀ k, (es.foldl (fun s e => s.moveTo e.2 0) s).widget? k = s.widget? k := by
    induction es generalizing s with
    | nil => exact ⟨hs, fun _ => rfl⟩
    | cons e es ih =>
      obtain ⟨hw, hk⟩ := ih (s.moveTo e.2 0) (hs.moveTo e.2 0)
      exact ⟨hw, fun k => (hk k).trans (widget?_moveTo s e.2 k 0)⟩
  have hraises (es : List (Int × Handle)) (s : Screen) (hs : s.WellFormed) :
      (es.foldl (fun s e => s.raise e.2) s).WellFormed ∧
        ∀ k, (es.foldl (fun s e => s.raise e.2) s).widget? k = s.widget? k := by
    induction es generalizing s with
    | nil => exact ⟨hs, fun _ => rfl⟩
    | cons e es ih =>
      obtain ⟨hw, hk⟩ := ih (s.raise e.2) (hs.raise e.2)
      exact ⟨hw, fun k => (hk k).trans (widget?_raise s e.2 k)⟩
  obtain ⟨hw₁, hk₁⟩ := hmoves (sunken controls) s hs
  obtain ⟨hw₂, hk₂⟩ := hraises (raised controls) _ hw₁
  have hk (k : Handle) : (s.stack controls).widget? k = s.widget? k := (hk₂ k).trans (hk₁ k)
  exact ⟨⟨hw₂, fun h w hw => by rw [hk, hw]⟩, hk⟩

end Screen
end ScreenMarkup
