import ScreenMarkup.Proofs.Screen.Change

/-!
# Changes of looks

Rules and inline attributes place and style a widget. They change no other
widget and never what it shows.
-/

set_option autoImplicit false

namespace ScreenMarkup.Screen

variable {s t u : Screen} {h k : Handle} {H K : Handle → Prop}

/-- Only the widgets in `H` differ, and they show what they showed. -/
abbrev Restyles (H : Handle → Prop) (s t : Screen) : Prop := Touches H Widget.SameContent s t

theorem Restyles.refl (s : Screen) : Restyles H s s :=
  Touches.refl (P := Widget.SameContent) (fun _ => rfl) s

theorem Restyles.trans (h₁ : Restyles H s t) (h₂ : Restyles H t u) : Restyles H s u :=
  Touches.trans (fun _ _ _ p q => Eq.trans q p) h₁ h₂

theorem Restyles.mono (ht : Restyles H s t) (hH : ∀ k, H k → K k) : Restyles K s t :=
  Touches.mono ht hH fun _ _ p => p

theorem restyles_modify {f : Widget → Widget} (hf : ∀ w, (f w).content = w.content) :
    Restyles (· = h) s (s.modify h f) :=
  touches_modify (fun _ => rfl) hf

theorem Restyles.foldl {α : Type} {f : Screen → α → Screen} (hf : ∀ s a, Restyles H s (f s a))
    (as : List α) (s : Screen) : Restyles H s (as.foldl f s) := by
  induction as generalizing s with
  | nil => exact Restyles.refl s
  | cons a as ih => exact (hf s a).trans (ih (f s a))

theorem Restyles.exists_content (ht : Restyles H s t) {w : Widget} (hw : s.widget? k = some w) :
    ∃ v, t.widget? k = some v ∧ v.content = w.content :=
  ht.exists_widget hw

theorem WellFormed.restyle (hs : s.WellFormed) (ht : Restyles H s t) : t.WellFormed :=
  hs.touch (fun _ _ p => p.sameKind) ht

theorem Restyles.preserves (ht : Restyles H s t) (hs : s.WellFormed) : Preserves s t :=
  ⟨hs.restyle ht, fun _ _ hw => ht.exists_content hw⟩

/-! ## Single changes -/

theorem setPos_restyles (s : Screen) (h : Handle) (x y : Int) :
    Restyles (· = h) s (s.setPos h x y) :=
  restyles_modify fun _ => rfl

theorem setSize_restyles (s : Screen) (h : Handle) (x y : Int) :
    Restyles (· = h) s (s.setSize h x y) :=
  restyles_modify fun w => w.setSize_content _ x y

theorem align_restyles (s : Screen) (h : Handle) (a : Align) (shift : Offset) :
    Restyles (· = h) s (s.align h a shift) :=
  restyles_modify fun w => w.align_content _ a shift

theorem applyStyle_restyles (s : Screen) (h : Handle) (p : StyleChange) :
    Restyles (· = h) s (s.applyStyle h p) :=
  restyles_modify fun _ => rfl

theorem applyStyles_restyles (s : Screen) (h : Handle) (ps : List StyleChange) :
    Restyles (· = h) s (s.applyStyles h ps) :=
  Restyles.foldl (fun s p => applyStyle_restyles s h p) ps s

theorem setBackground_restyles (s : Screen) (h : Handle) (c : Nat) :
    Restyles (· = h) s (s.setBackground h c) :=
  applyStyles_restyles s h _

theorem clearStyle_restyles (s : Screen) (h : Handle) : Restyles (· = h) s (s.clearStyle h) :=
  restyles_modify fun _ => rfl

theorem configure_restyles (s : Screen) (h : Handle) (setting : Setting) :
    Restyles (· = h) s (s.configure h setting) :=
  restyles_modify fun w => w.configure_content setting

theorem resize_restyles (s : Screen) (h : Handle) (x y : Int) :
    Restyles (· = h) s (s.resize h x y) :=
  setSize_restyles s h _ _

theorem invalidate_restyles (s : Screen) (h : Handle) : Restyles (· = h) s (s.invalidate h) :=
  restyles_modify fun _ => rfl

theorem setActiveTile_restyles (s : Screen) (h tile : Handle) :
    Restyles (· = h) s (s.setActiveTile h tile) :=
  restyles_modify fun _ => rfl

/-! ## Rules -/

/-- A relation that single changes of the place, size and style of one widget stay within. -/
structure Styling (h : Handle) (R : Screen → Screen → Prop) : Prop where
  refl : ∀ s, R s s
  trans : ∀ {s t u}, R s t → R t u → R s u
  setPos : ∀ s x y, R s (s.setPos h x y)
  setSize : ∀ s width height, R s (s.setSize h width height)
  applyStyle : ∀ s p, R s (s.applyStyle h p)

namespace Styling

variable {R : Screen → Screen → Prop}

theorem foldl {α : Type} {f : Screen → α → Screen} (hR : Styling h R) (hf : ∀ s a, R s (f s a))
    (as : List α) (s : Screen) : R s (as.foldl f s) := by
  induction as generalizing s with
  | nil => exact hR.refl s
  | cons a as ih => exact hR.trans (hf s a) (ih (f s a))

theorem applyStyles (hR : Styling h R) (s : Screen) (ps : List StyleChange) :
    R s (s.applyStyles h ps) :=
  hR.foldl hR.applyStyle ps s

theorem ite (hR : Styling h R) {c : Prop} [Decidable c] (ht : R s t) :
    R s (if c then t else s) := by
  split
  · exact ht
  · exact hR.refl s

theorem alignText (hR : Styling h R) (s : Screen) (valign : String) (height : Int) :
    R s (s.alignText h valign height) := by
  unfold Screen.alignText
  split
  · exact hR.refl s
  · exact hR.ite (hR.applyStyle s _)

theorem declare (hR : Styling h R) (s : Screen) (d : Declaration) : R s (s.declare h d) := by
  cases d with
  | textColor c => exact hR.applyStyle s _
  | background c => exact hR.applyStyles s _
  | font f => exact hR.applyStyle s _
  | radius r => exact hR.applyStyle s _
  | zIndex z => exact hR.refl s
  | width w => exact hR.ite (hR.setSize s _ _)
  | height n => exact hR.ite (hR.setSize s _ _)
  | left x => exact hR.ite (hR.setPos s _ _)
  | top y => exact hR.ite (hR.setPos s _ _)
  | padding side p =>
    cases side with
    | none => exact hR.ite (hR.applyStyles s _)
    | some side => exact hR.ite (hR.applyStyle s _)
  | opacity o => exact hR.applyStyle s _
  | textAlign a v => exact hR.applyStyle s _
  | textValign v => exact hR.refl s

theorem applyProperties (hR : Styling h R) (s : Screen) (properties : NameTable) (size : Size) :
    R s (s.applyProperties h properties size).2 := by
  unfold Screen.applyProperties
  extract_lets ds declared aligned
  refine hR.trans (hR.foldl hR.declare ds s) ?_
  show R declared aligned
  unfold aligned
  cases wantedValign ds with
  | none => exact hR.refl declared
  | some v => exact hR.alignText declared v _

theorem applyRules (hR : Styling h R) (s : Screen) (sheet : Stylesheet) (tag id classes : String)
    (size : Size) : R s (s.applyRules h sheet tag id classes size).2 := by
  unfold Screen.applyRules
  have hfold (rules : List Rule) (acc : Option Int × Screen) : R acc.2 (rules.foldl
      (fun acc r =>
        let step := acc.2.applyProperties h r.properties size
        (step.1.or acc.1, step.2)) acc).2 := by
    induction rules generalizing acc with
    | nil => exact hR.refl acc.2
    | cons r rules ih =>
      exact hR.trans (hR.applyProperties acc.2 r.properties size)
        (ih ((acc.2.applyProperties h r.properties size).1.or acc.1, _))
  exact hfold _ (none, s)

/-- Inline attributes style a widget and the text inside of it. -/
theorem applyInline {text : Handle} (hR : Styling h R) (hT : Styling text R) (s : Screen)
    (i : Inline) : R s (s.applyInline h text i) := by
  unfold Screen.applyInline
  extract_lets background radius color font position
  have hbackground : R s background := by
    unfold background
    cases i.bgcolor with
    | none => exact hR.refl s
    | some c => exact hR.applyStyles s _
  have hradius : R background radius := by
    unfold radius
    cases i.radius with
    | none => exact hR.refl background
    | some r => exact hR.applyStyle background _
  have hcolor : R radius color := by
    unfold color
    cases i.color with
    | none => exact hR.refl radius
    | some c => exact hT.applyStyle radius _
  have hfont : R color font := by
    unfold font
    cases i.font with
    | none => exact hR.refl color
    | some f => exact hT.applyStyle color _
  have hposition : R font position := hR.ite (hR.setPos font _ _)
  have hstyled := hR.trans (hR.trans hbackground hradius) (hR.trans hcolor hfont)
  exact hR.trans hstyled (hR.trans hposition (hR.ite (hR.setSize position _ _)))

end Styling

theorem restyles_styling (hh : H h) : Styling h (Restyles H) where
  refl := Restyles.refl
  trans := Restyles.trans
  setPos s x y := (setPos_restyles s h x y).mono fun _ he => he ▸ hh
  setSize s x y := (setSize_restyles s h x y).mono fun _ he => he ▸ hh
  applyStyle s p := (applyStyle_restyles s h p).mono fun _ he => he ▸ hh

theorem alignText_restyles (s : Screen) (h : Handle) (valign : String) (height : Int) :
    Restyles (· = h) s (s.alignText h valign height) :=
  (restyles_styling (H := (· = h)) rfl).alignText s valign height

theorem applyRules_restyles (s : Screen) (h : Handle) (sheet : Stylesheet)
    (tag id classes : String) (size : Size) :
    Restyles (· = h) s (s.applyRules h sheet tag id classes size).2 :=
  (restyles_styling (H := (· = h)) rfl).applyRules s sheet tag id classes size

theorem applyInline_restyles (s : Screen) (h text : Handle) (i : Inline) :
    Restyles (fun k => k = h ∨ k = text) s (s.applyInline h text i) :=
  (restyles_styling (.inl rfl)).applyInline (restyles_styling (.inr rfl)) s i

end ScreenMarkup.Screen
