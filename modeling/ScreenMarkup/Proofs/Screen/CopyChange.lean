import ScreenMarkup.Control.Basic
import ScreenMarkup.Proofs.Screen.Copy
import ScreenMarkup.Session.Build.Inline

/-!
# Changes of copies

Places, looks, rules and stacking ask a screen only for what its copy answers
too, so each of these changes leads from copies to copies.
-/

set_option autoImplicit false

namespace ScreenMarkup

/-! ## Renamed widgets -/

namespace Widget

variable {f : Handle → Handle}

theorem realign_rename (w : Widget) (parent : Option Size) :
    (w.rename f).realign parent = (w.realign parent).rename f := by
  obtain ⟨_, _, aligned⟩ := w
  cases aligned <;> rfl

theorem setSize_rename (w : Widget) (parent : Option Size) (width height : Int) :
    (w.rename f).setSize parent width height = (w.setSize parent width height).rename f :=
  realign_rename { w with rect := { w.rect with width := width, height := height } } parent

theorem align_rename (w : Widget) (parent : Option Size) (a : Align) (shift : Offset) :
    (w.rename f).align parent a shift = (w.align parent a shift).rename f :=
  realign_rename { w with aligned := some (a, shift) } parent

end Widget

/-- The setting of a keyboard is the only one that names a widget. -/
def Setting.rename (f : Handle → Handle) : Setting → Setting
  | keyboardTarget h => keyboardTarget (h.map f)
  | setting => setting

theorem Widget.configure_rename {f : Handle → Handle} (w : Widget) (setting : Setting) :
    (w.rename f).configure (setting.rename f) = (w.configure setting).rename f := by
  cases setting <;> rfl

namespace Screen.Copies

variable {ρ : Renaming} {s t : Screen} {h k : Handle}

/-! ## Single changes -/

theorem setPos (hc : Copies ρ s t) (h : Handle) (x y : Int) :
    Copies ρ (s.setPos h x y) (t.setPos (ρ h) x y) :=
  hc.modify h fun _ => rfl

theorem setSize (hc : Copies ρ s t) (h : Handle) (x y : Int) :
    Copies ρ (s.setSize h x y) (t.setSize (ρ h) x y) := by
  unfold Screen.setSize
  rw [hc.parentSize?]
  exact hc.modify h fun w => w.setSize_rename _ x y

theorem align (hc : Copies ρ s t) (h : Handle) (a : Align) (shift : Offset) :
    Copies ρ (s.align h a shift) (t.align (ρ h) a shift) := by
  unfold Screen.align
  rw [hc.parentSize?]
  exact hc.modify h fun w => w.align_rename _ a shift

theorem setHidden (hc : Copies ρ s t) (h : Handle) (b : Bool) :
    Copies ρ (s.setHidden h b) (t.setHidden (ρ h) b) :=
  hc.modify h fun _ => rfl

theorem applyStyle (hc : Copies ρ s t) (h : Handle) (p : StyleChange) :
    Copies ρ (s.applyStyle h p) (t.applyStyle (ρ h) p) :=
  hc.modify h fun _ => rfl

theorem setText (hc : Copies ρ s t) (h : Handle) (text : String) :
    Copies ρ (s.setText h text) (t.setText (ρ h) text) :=
  hc.modify h fun _ => rfl

theorem setChecked (hc : Copies ρ s t) (h : Handle) (b : Bool) :
    Copies ρ (s.setChecked h b) (t.setChecked (ρ h) b) :=
  hc.modify h fun _ => rfl

theorem setRange (hc : Copies ρ s t) (h : Handle) (low high : Int) :
    Copies ρ (s.setRange h low high) (t.setRange (ρ h) low high) :=
  hc.modify h fun _ => rfl

theorem setValue (hc : Copies ρ s t) (h : Handle) (v : Int) :
    Copies ρ (s.setValue h v) (t.setValue (ρ h) v) :=
  hc.modify h fun _ => rfl

theorem setSpans (hc : Copies ρ s t) (h : Handle) (spans : List Span) :
    Copies ρ (s.setSpans h spans) (t.setSpans (ρ h) spans) :=
  hc.modify h fun _ => rfl

theorem configure (hc : Copies ρ s t) (h : Handle) (setting : Setting)
    (hs : setting.rename ρ = setting) :
    Copies ρ (s.configure h setting) (t.configure (ρ h) setting) := by
  have hsetting (w : Widget) : (w.rename ρ).configure setting = (w.configure setting).rename ρ := by
    conv_lhs => rw [← hs]
    exact w.configure_rename setting
  exact hc.modify h hsetting

theorem invalidate (hc : Copies ρ s t) (h : Handle) :
    Copies ρ (s.invalidate h) (t.invalidate (ρ h)) :=
  hc.modify h fun _ => rfl

theorem setActiveTile (hc : Copies ρ s t) (view tile : Handle) :
    Copies ρ (s.setActiveTile view tile) (t.setActiveTile (ρ view) (ρ tile)) :=
  hc.modify view fun _ => rfl

/-! ## Several changes -/

theorem foldl {α : Type} {f g : Screen → α → Screen}
    (hfg : ∀ s t a, Copies ρ s t → Copies ρ (f s a) (g t a)) (hc : Copies ρ s t) (as : List α) :
    Copies ρ (as.foldl f s) (as.foldl g t) := by
  induction as generalizing s t with
  | nil => exact hc
  | cons a as ih => exact ih (hfg s t a hc)

theorem ite {c : Prop} [Decidable c] {u v : Screen} (hc : Copies ρ s t) (hd : Copies ρ u v) :
    Copies ρ (if c then s else u) (if c then t else v) := by
  split
  · exact hc
  · exact hd

theorem applyStyles (hc : Copies ρ s t) (h : Handle) (ps : List StyleChange) :
    Copies ρ (s.applyStyles h ps) (t.applyStyles (ρ h) ps) :=
  foldl (fun _ _ p hc => hc.applyStyle h p) hc ps

theorem setBackground (hc : Copies ρ s t) (h : Handle) (c : Nat) :
    Copies ρ (s.setBackground h c) (t.setBackground (ρ h) c) :=
  hc.applyStyles h _

theorem resize (hc : Copies ρ s t) (h : Handle) (x y : Int) :
    Copies ρ (s.resize h x y) (t.resize (ρ h) x y) := by
  unfold Screen.resize
  rw [hc.rect]
  exact hc.setSize h _ _

/-! ## Rules -/

theorem alignText (hc : Copies ρ s t) (h : Handle) (valign : String) (height : Int) :
    Copies ρ (s.alignText h valign height) (t.alignText (ρ h) valign height) := by
  unfold Screen.alignText
  rw [hc.style]
  exact hc.ite ((hc.applyStyle h _).ite hc)

theorem declare (hc : Copies ρ s t) (h : Handle) (d : Declaration) :
    Copies ρ (s.declare h d) (t.declare (ρ h) d) := by
  cases d with
  | textColor c => exact hc.applyStyle h _
  | background c => exact hc.setBackground h c
  | font f => exact hc.applyStyle h _
  | radius r => exact hc.applyStyle h _
  | zIndex z => exact hc
  | width w =>
    simp only [Screen.declare, hc.rect]
    exact (hc.setSize h _ _).ite hc
  | height n =>
    simp only [Screen.declare, hc.rect]
    exact (hc.setSize h _ _).ite hc
  | left x =>
    simp only [Screen.declare, hc.rect]
    exact (hc.setPos h _ _).ite hc
  | top y =>
    simp only [Screen.declare, hc.rect]
    exact (hc.setPos h _ _).ite hc
  | padding side p =>
    refine ite (c := 0 ≤ p) ?_ hc
    cases side with
    | none => exact hc.applyStyles h _
    | some side => exact hc.applyStyle h _
  | opacity o => exact hc.applyStyle h _
  | textAlign a v => exact hc.applyStyle h _
  | textValign v => exact hc

theorem applyProperties (hc : Copies ρ s t) (h : Handle) (properties : NameTable) (size : Size) :
    (t.applyProperties (ρ h) properties size).1 = (s.applyProperties h properties size).1 ∧
      Copies ρ (s.applyProperties h properties size).2
        (t.applyProperties (ρ h) properties size).2 := by
  refine ⟨rfl, ?_⟩
  unfold Screen.applyProperties
  extract_lets ds declared aligned declared' aligned'
  have hdeclared : Copies ρ declared declared' := foldl (fun _ _ d hc => hc.declare h d) hc ds
  show Copies ρ aligned aligned'
  unfold aligned aligned'
  cases wantedValign ds with
  | none => exact hdeclared
  | some v =>
    simp only [hdeclared.rect]
    exact hdeclared.alignText h v _

theorem exists_applyRules (hc : Copies ρ s t) (h : Handle) (sheet : Stylesheet)
    (tag id classes : String) (size : Size) :
    ∃ z s' t', s.applyRules h sheet tag id classes size = (z, s') ∧
      t.applyRules (ρ h) sheet tag id classes size = (z, t') ∧ Copies ρ s' t' := by
  unfold Screen.applyRules
  generalize sheet.matching tag id classes = rules
  generalize (none : Option Int) = z
  induction rules generalizing s t z with
  | nil => exact ⟨_, _, _, rfl, rfl, hc⟩
  | cons r rules ih =>
    obtain ⟨hz, hc⟩ := hc.applyProperties h r.properties size
    simp only [List.foldl_cons, hz]
    exact ih hc _

/-! ## Inline attributes -/

theorem applyInline (hc : Copies ρ s t) (h text : Handle) (i : Inline) :
    Copies ρ (s.applyInline h text i) (t.applyInline (ρ h) (ρ text) i) := by
  unfold Screen.applyInline
  extract_lets background radius color font place background' radius' color' font' place'
  have hbackground : Copies ρ background background' := by
    unfold background background'
    cases i.bgcolor with
    | none => exact hc
    | some c => exact hc.setBackground h c
  have hradius : Copies ρ radius radius' := by
    unfold radius radius'
    cases i.radius with
    | none => exact hbackground
    | some r => exact hbackground.applyStyle h _
  have hcolor : Copies ρ color color' := by
    unfold color color'
    cases i.color with
    | none => exact hradius
    | some c => exact hradius.applyStyle text _
  have hfont : Copies ρ font font' := by
    unfold font font'
    cases i.font with
    | none => exact hcolor
    | some f => exact hcolor.applyStyle text _
  have hplace : Copies ρ place place' := by
    unfold place place'
    rw [hfont.rect]
    exact (hfont.setPos h _ _).ite hfont
  rw [hplace.rect]
  exact (hplace.setSize h _ _).ite hplace

end Screen.Copies
end ScreenMarkup
