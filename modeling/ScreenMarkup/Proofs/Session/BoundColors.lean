import ScreenMarkup.Proofs.Session.InlineStyles
import ScreenMarkup.Proofs.Session.WriteRuns

/-!
# Bound colors

A color that is written as a placeholder is the color that its variable tells
when the element is rendered. Of labels and buttons it follows the variable
from then on, as long as no class changes. Inputs and rich texts record no such
binding: whatever the variable becomes, they keep the style they were rendered
in.
-/

set_option autoImplicit false

namespace ScreenMarkup

/-! ## The control of an element without bound classes -/

namespace Control.Serves

variable {c : Control} {p : Placed}

theorem unclassed (hc : c.Serves p) (hd : Template.isDynamic p.classes = false) :
    c.classTemplate = none := by
  rw [hc.classes, dynamic?, hd]
  rfl

theorem unbound (hc : c.Serves p) (hk : p.kind.bindsColors = false) :
    c.colorBind = none ∧ c.bgcolorBind = none := by
  rw [hc.color, hc.bgcolor, ControlKind.colorBind, ControlKind.colorBind, hk]
  exact ⟨rfl, rfl⟩

end Control.Serves

/-! ## The two colors -/

/-- The colors that may be bound to a variable. -/
inductive ColorRole where
  | text | background
deriving DecidableEq, Inhabited

namespace ColorRole

variable {role : ColorRole} {c : Control} {p : Placed} {s : Session}

def source (p : Placed) : ColorRole → String
  | text => p.color
  | background => p.bgcolor

def bearer (p : Placed) : ColorRole → Handle
  | text => p.inner
  | background => p.outer

def shade (style : Style) : ColorRole → Option Nat
  | text => style.textColor
  | background => style.bgColor

def widget (c : Control) : ColorRole → Handle
  | text => c.obj
  | background => c.target

def bind? (c : Control) : ColorRole → Option String
  | text => c.colorBind
  | background => c.bgcolorBind

/-- The builder of the element takes the color from a variable. -/
def Takes (p : Placed) (role : ColorRole) : Prop :=
  (role = .text → p.showsText = true) ∧ Template.isDynamic (role.source p) = true

/-- The variable that the color is taken from. -/
def name (p : Placed) (role : ColorRole) : String := Template.boundName (role.source p)

/-- The variable of a placeholder has a name. -/
theorem boundName_ne {binding : String} (hd : Template.isDynamic binding = true) :
    Template.boundName binding ≠ "" := by
  have hne : binding ≠ "" := by
    rintro rfl
    cases hd
  unfold Template.boundName
  split
  · split
    · next h =>
      obtain ⟨hlen, -⟩ := h
      intro he
      have hnil := congrArg (fun b : String => b.toList.length) he
      simp at hnil
      omega
    · exact hne
  · exact hne

theorem owns (c : Control) (role : ColorRole) : c.Owns (role.widget c) := by
  cases role with
  | text => exact c.owns_obj
  | background => exact c.owns_target

theorem widget_eq (hc : c.Serves p) (ht : role.Takes p) : role.widget c = role.bearer p := by
  cases role with
  | text => exact hc.obj (ht.1 rfl)
  | background => exact hc.target

theorem bind?_eq (hc : c.Serves p) : role.bind? c = p.kind.colorBind (role.source p) := by
  cases role with
  | text => exact hc.color
  | background => exact hc.bgcolor

theorem bind?_of_bindsColors (hc : c.Serves p) (hk : p.kind.bindsColors = true)
    (ht : role.Takes p) : role.bind? c = some (role.name p) := by
  rw [bind?_eq hc, ControlKind.colorBind, hk, ht.2, Bool.and_self, if_pos rfl, Control.bound?,
    if_neg (boundName_ne ht.2)]
  rfl

theorem isBound_of_bindsColors (hk : p.kind.bindsColors = true) (ht : role.Takes p) :
    p.isBound = true := by
  have hsource := ht.2
  rw [Placed.isBound, hk]
  cases role with
  | text => simp [show Template.isDynamic p.color = true from hsource]
  | background => simp [show Template.isDynamic p.bgcolor = true from hsource]

/-- A rendering takes the color from the text that the variable has. -/
theorem shade_of_painted {v : Screen} (hv : v.Painted p.outer p.inner (p.inline s))
    (ht : role.Takes p) (hne : s.store.text (role.name p) ≠ "") :
    role.shade (v.style (role.bearer p)) =
      some (Color.ofAttribute (s.store.text (role.name p))) := by
  have hwritten : s.writtenColor (role.source p) =
      some (Color.ofAttribute (s.store.text (role.name p))) := by
    rw [Session.writtenColor, if_pos ht.2]
    exact if_neg hne
  cases role with
  | text => exact hv.color _ ((if_pos (ht.1 rfl)).trans hwritten)
  | background => exact (hv.bgcolor _ hwritten).1

/-- Without classes that depend on variables a refresh sets a color where it is bound to the
variable, and leaves it elsewhere. -/
theorem shade_styled (hT : c.classTemplate = none) (r : Refresh) (height : Int) (style : Style) :
    role.shade (r.styled c (role.widget c) height style) =
      if role.bind? c = some r.name then some (Color.ofAttribute r.value)
      else role.shade style := by
  have haffected : r.affected? c.classTemplate = none := by
    rw [hT]
    rfl
  rw [Refresh.styled_of_unruled haffected]
  cases role with
  | text =>
    show (r.colorFor c c.obj).or style.textColor = _
    by_cases hb : c.colorBind = some r.name
    · rw [Refresh.colorFor, if_pos rfl, if_pos hb, bind?, if_pos hb]
      rfl
    · rw [Refresh.colorFor_of_ne haffected hb, bind?, if_neg hb]
      rfl
  | background =>
    show (r.backgroundFor c c.target).or style.bgColor = _
    by_cases hb : c.bgcolorBind = some r.name
    · rw [Refresh.backgroundFor, if_pos ⟨rfl, hb⟩, bind?, if_pos hb]
      rfl
    · rw [Refresh.backgroundFor, if_neg fun h => hb h.2, bind?, if_neg hb]
      rfl

end ColorRole

namespace Session

variable {s t : Session} {c : Control} {p : Placed} {k : Handle} {role : ColorRole}

/-! ## Where the color is bound -/

/-- A color that is bound to a variable tells the text of the variable, where it has one. -/
def Tells (s : Session) (role : ColorRole) (h : Handle) (v : String) : Prop :=
  s.store.text v ≠ "" →
    role.shade (s.screen.style h) = some (Color.ofAttribute (s.store.text v))

theorem Tells.assign {v : String} (ht : s.Tells role (role.widget c) v) (hs : s.WellFormed)
    (hc : c ∈ s.controls) (hT : c.classTemplate = none) (hb : role.bind? c = some v)
    (name value : String) : (s.assign name value).Tells role (role.widget c) v := by
  intro hne
  rw [assign_store] at hne ⊢
  rw [(assign_widget hs hc (role.owns c) name value).2]
  cases hchanged : (s.store.setText name value true).1 with
  | false =>
    rw [Store.text_record_of_unchanged (n := v) hchanged] at hne ⊢
    exact ht hne
  | true =>
    rw [if_pos rfl, ColorRole.shade_styled hT, hb]
    by_cases hv : v = name
    · rw [hv]
      exact if_pos rfl
    · rw [Store.text_record_of_ne hv] at hne ⊢
      exact (if_neg fun he => hv (Option.some.inj he)).trans (ht hne)

/-! ## Where it is not -/

theorem style_assign_of_not_owns (hs : s.WellFormed) (ho : ∀ c ∈ s.controls, ¬ c.Owns k)
    (name value : String) : (s.assign name value).screen.style k = s.screen.style k := by
  rw [Screen.style, (assigned_redraws hs name value).widget k, Screen.style]
  cases s.screen.widget? k with
  | none => rfl
  | some w => rw [Option.map_some, Controls.each_of_not_owns ho]

theorem style_assign_of_unbound (hs : s.WellFormed) (hc : c ∈ s.controls) (ho : c.Owns k)
    (hT : c.classTemplate = none) (hcolor : c.colorBind = none) (hback : c.bgcolorBind = none)
    (name value : String) : (s.assign name value).screen.style k = s.screen.style k := by
  rw [(assign_widget hs hc ho name value).2]
  split
  · refine Refresh.styled_of_inert ?_ ?_ ?_
    · rw [hT]
      rfl
    · rw [hcolor]
      exact fun he => nomatch he
    · rw [hback]
      exact fun he => nomatch he
  · rfl

/-- Elements of other kinds are not restyled, neither by their control nor without one. -/
theorem style_assignAll_of_unbound (ht : t.WellFormed) (hp : p.Stands t)
    (hd : Template.isDynamic p.classes = false) (hk : p.kind.bindsColors = false)
    (htakes : role.Takes p) (writes : List (String × String)) :
    (t.assignAll writes).screen.style (role.bearer p) = t.screen.style (role.bearer p) := by
  have hstep : ∀ u name value, Session.WellFormed u → u.controls = t.controls →
      (u.assign name value).screen.style (role.bearer p) =
        u.screen.style (role.bearer p) := by
    intro u name value hu he
    rcases hp.served with ⟨c, hc, hserves⟩ | ⟨-, hunowned⟩
    · obtain ⟨hcolor, hback⟩ := hserves.unbound hk
      rw [← ColorRole.widget_eq hserves htakes]
      exact style_assign_of_unbound hu (he ▸ hc) (role.owns c) (hserves.unclassed hd) hcolor hback
        name value
    · refine style_assign_of_not_owns hu (fun c hc => ?_) name value
      rw [he] at hc
      cases role with
      | text => exact (hunowned c hc).2
      | background => exact (hunowned c hc).1
  exact assignAll_keeps
    (P := fun u => u.screen.style (role.bearer p) = t.screen.style (role.bearer p)) ht rfl
    (fun u name value hu he hP => (hstep u name value hu he).trans hP) writes

/-- After any run of writes a color that the builder takes from a variable is the one that the
variable tells, where it has a text, exactly when the element is a label or a button, or already
had this color when it was rendered. -/
theorem bound_colors_follow_iff (config : Config) (history : List Operation) (markup : String) :
    let s := (Session.new config).after history
    let t := s.render markup
    ∀ p ∈ s.placed markup, p.kind.isStyled = true → Template.isDynamic p.classes = false →
      ∀ role : ColorRole, role.Takes p → ∀ writes,
        let u := t.assignAll writes
        let text := u.store.text (role.name p)
        text ≠ "" →
          (role.shade (u.screen.style (role.bearer p)) = some (Color.ofAttribute text) ↔
            p.kind.bindsColors = true ∨
              role.shade (t.screen.style (role.bearer p)) = some (Color.ofAttribute text)) := by
  intro s t p hp hk hd role htakes writes u text hne
  have hs : s.WellFormed := (wellFormed_new config).after history
  have ht : t.WellFormed := hs.render markup
  have hstands := render_stands hs markup p hp hk
  cases hbinds : p.kind.bindsColors with
  | false =>
    have hstyle : u.screen.style (role.bearer p) = t.screen.style (role.bearer p) :=
      style_assignAll_of_unbound ht hstands hd hbinds htakes writes
    rw [hstyle]
    simp
  | true =>
    have hbound := ColorRole.isBound_of_bindsColors hbinds htakes
    obtain ⟨c, hc, hserves⟩ := hstands.served.resolve_right fun h => by simp [hbound] at h
    have hT := hserves.unclassed hd
    have hbind := ColorRole.bind?_of_bindsColors hserves hbinds htakes
    have hwidget := ColorRole.widget_eq hserves htakes
    have hstart : t.Tells role (role.widget c) (role.name p) := by
      rw [hwidget]
      exact ColorRole.shade_of_painted hstands.painted htakes
    have hend : u.Tells role (role.widget c) (role.name p) :=
      assignAll_keeps (P := fun u => u.Tells role (role.widget c) (role.name p)) ht hstart
        (fun _ name value hu he hP => hP.assign hu (he ▸ hc) hT hbind name value) writes
    rw [hwidget] at hend
    exact iff_of_true (hend hne) (.inl rfl)

/-- A button that writes its text color in the label inside. -/
theorem bound_colors_follow_of_button :
    let s := (Session.new {}).after []
    let markup := "<state><string name='v' default='#00ff00'/></state>" ++
      "<button color='\x7bv\x7d'>Go</button>"
    let u := (s.render markup).assignAll [("w", "#0000ff"), ("v", "#ff0000")]
    ∃ p ∈ s.placed markup, p.inner ≠ p.outer ∧
      (u.screen.style p.inner).textColor = some 0xFF0000 := by
  intro s markup u
  have hplaced : ∃ p ∈ s.placed markup, p.kind = .button ∧ p.showsText = true ∧
      p.classes = "" ∧ p.color = "\x7bv\x7d" ∧ p.inner ≠ p.outer := by
    decide +kernel
  obtain ⟨p, hp, hkind, hshows, hclasses, hcolor, hne⟩ := hplaced
  have htakes : ColorRole.Takes p .text := by
    refine ⟨fun _ => hshows, ?_⟩
    rw [ColorRole.source, hcolor]
    decide
  have hname : ColorRole.name p .text = "v" := by
    rw [ColorRole.name, ColorRole.source, hcolor]
    decide +kernel
  have htext : u.store.text "v" = "#ff0000" := by decide +kernel
  have hfollows := bound_colors_follow_iff {} [] markup p hp (by rw [hkind]; rfl)
    (by rw [hclasses]; decide) .text htakes [("w", "#0000ff"), ("v", "#ff0000")]
  have hred : (u.screen.style p.inner).textColor =
      some (Color.ofAttribute (u.store.text (ColorRole.name p .text))) := by
    refine (hfollows ?_).mpr (.inl ?_)
    · rw [hname, htext]
      decide
    · rw [hkind]
      rfl
  rw [hname, htext] at hred
  exact ⟨p, hp, hne, hred⟩

/-- The text of an input keeps the color that it was rendered in. -/
theorem not_bound_colors_follow :
    ¬ ∀ (config : Config) (history : List Operation) (markup : String),
      let s := (Session.new config).after history
      let t := s.render markup
      ∀ p ∈ s.placed markup, p.kind.isStyled = true → Template.isDynamic p.classes = false →
        ∀ role : ColorRole, role.Takes p → ∀ writes,
          let u := t.assignAll writes
          let text := u.store.text (role.name p)
          text ≠ "" →
            role.shade (u.screen.style (role.bearer p)) = some (Color.ofAttribute text) := by
  intro hall
  have hplaced : ∃ p ∈ ((Session.new {}).after []).placed
      "<state><string name='v'/></state><input id='i' color='\x7bv\x7d'/>",
      p.kind = .input ∧ p.classes = "" ∧ p.color = "\x7bv\x7d" ∧ p.inner = ⟨1, 1⟩ := by
    decide +kernel
  obtain ⟨p, hp, hkind, hclasses, hcolor, hinner⟩ := hplaced
  have htakes : ColorRole.Takes p .text := by
    refine ⟨fun _ => ?_, ?_⟩
    · rw [Placed.showsText, hkind]
      rfl
    · rw [ColorRole.source, hcolor]
      decide
  have hred := hall {} [] _ p hp (by rw [hkind]; rfl) (by rw [hclasses]; decide) .text htakes
    [("v", "#ff0000")]
  rw [ColorRole.name, ColorRole.source, hcolor, ColorRole.bearer, hinner] at hred
  revert hred
  decide +kernel

end Session
end ScreenMarkup
