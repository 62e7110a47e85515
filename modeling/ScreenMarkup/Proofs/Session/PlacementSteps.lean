import ScreenMarkup.Proofs.Session.Placement

/-!
# Building what is placed

From the moment a widget is made to the moment its control is recorded, a
builder takes no widget away, changes no variable and rewires no control. The
steps after the inline attributes are no paint either.
-/

set_option autoImplicit false

namespace ScreenMarkup

namespace Session

variable {s t u : Session} {h parent : Handle} {p : Placed}

/-! ## Steps of a builder -/

structure Carries (s t : Session) : Prop where
  screen : s.screen.Carries t.screen
  store : t.store = s.store
  controls : t.controls.map Control.wiring = s.controls.map Control.wiring

theorem Carries.refl (s : Session) : Carries s s := ⟨Screen.Carries.refl _, rfl, rfl⟩

theorem Carries.trans (h₁ : Carries s t) (h₂ : Carries t u) : Carries s u :=
  ⟨h₁.screen.trans h₂.screen, h₂.store.trans h₁.store, h₂.controls.trans h₁.controls⟩

theorem mapScreen_carries (s : Session) {f : Screen → Screen}
    (hf : s.screen.Carries (f s.screen)) : Carries s (s.mapScreen f) :=
  ⟨hf, rfl, rfl⟩

theorem withId_carries {a a' : WidgetAttrs} {kind : ControlKind} {needed : Bool}
    (hw : s.withId a kind needed = (a', t)) : Carries s t := by
  unfold withId at hw
  split at hw <;> cases hw
  · exact ⟨Screen.Carries.refl _, rfl, rfl⟩
  · exact Carries.refl s

theorem create_carries {kind : WidgetKind} (hn : kind.isStyled = false)
    (hc : s.create kind parent = (h, t)) : Carries s t := by
  rw [create_eq] at hc
  cases hc
  exact ⟨Screen.carries_create hn s.screen parent, rfl, rfl⟩

theorem keepZIndex_carries (s : Session) (h : Handle) (z : Int) : Carries s (s.keepZIndex h z) := by
  unfold keepZIndex
  split
  · next i _ =>
    exact ⟨Screen.Carries.refl _, rfl,
      wiring_modify (f := ({ · with zIndex := z })) (fun _ => rfl) s.controls i⟩
  · exact ⟨Screen.Carries.refl _, rfl, rfl⟩

theorem applyRules_carries (s : Session) (h : Handle) (kind : ControlKind) (a : WidgetAttrs) :
    Carries s (s.applyRules h kind a) := by
  unfold applyRules
  extract_lets classes
  have hrules := (Screen.carries_styling h).applyRules s.screen s.sheet kind.tag a.id classes
    s.config.screen
  split
  next z v he =>
  rw [he] at hrules
  have hruled : Carries s { s with screen := v } := ⟨hrules, rfl, rfl⟩
  split
  · exact hruled.trans (keepZIndex_carries _ h _)
  · exact hruled

structure Settles (s t : Session) : Prop where
  screen : s.screen.Settles t.screen
  store : t.store = s.store
  controls : t.controls.map Control.wiring = s.controls.map Control.wiring

theorem Settles.refl (s : Session) : Settles s s := ⟨Screen.Settles.refl _, rfl, rfl⟩

theorem Settles.trans (h₁ : Settles s t) (h₂ : Settles t u) : Settles s u :=
  ⟨h₁.screen.trans h₂.screen, h₂.store.trans h₁.store, h₂.controls.trans h₁.controls⟩

theorem Settles.ite {c : Prop} [Decidable c] (ht : Settles s t) :
    Settles s (if c then t else s) := by
  split
  · exact ht
  · exact refl s

theorem Settles.carries (hs : Settles s t) : Carries s t :=
  ⟨hs.screen.carries, hs.store, hs.controls⟩

theorem mapScreen_settles (s : Session) {f : Screen → Screen}
    (hf : s.screen.Settles (f s.screen)) : Settles s (s.mapScreen f) :=
  ⟨hf, rfl, rfl⟩

theorem hideForGood_settles (s : Session) (h : Handle) (a : WidgetAttrs) :
    Settles s (s.hideForGood h a) :=
  (mapScreen_settles s (Screen.settles_setHidden s.screen h true)).ite

theorem place_settles (s : Session) (h : Handle) (e : Element) : Settles s (s.place h e) := by
  rcases place_cases s h e with he | ⟨a, shift, he⟩ | ⟨x, y, he⟩
  · rw [he]
    exact Settles.refl s
  · rw [he]
    exact mapScreen_settles s (Screen.settles_align s.screen h a shift)
  · rw [he]
    exact mapScreen_settles s
      ⟨(Screen.carries_styling h).setPos s.screen x y, Screen.samePaint_setPos s.screen h x y⟩

theorem sizeLabel_settles (s : Session) (h : Handle) (e : Element) :
    Settles s (s.sizeLabel h e) := by
  unfold sizeLabel
  extract_lets w n
  split
  · refine mapScreen_settles s ?_
    extract_lets sized
    have hsized : s.screen.Settles sized :=
      ⟨(Screen.carries_styling h).setSize s.screen _ _, Screen.samePaint_resize s.screen h w n⟩
    split
    · exact hsized.trans ⟨Screen.carries_configure sized h _, Screen.samePaint_configure sized h _⟩
    · exact hsized
  · exact Settles.refl s

theorem alignLabel_settles (s : Session) (h : Handle) (e : Element) :
    Settles s (s.alignLabel h e) := by
  unfold alignLabel
  extract_lets horizontal n
  refine mapScreen_settles s ?_
  extract_lets aligned
  have haligned : s.screen.Settles aligned :=
    Screen.Settles.ite ⟨(Screen.carries_styling h).applyStyle s.screen _,
      Screen.samePaint_modify fun _ => rfl⟩
  exact haligned.trans (Screen.Settles.ite
    ⟨(Screen.carries_styling h).alignText aligned _ n, Screen.samePaint_alignText aligned h _ n⟩)

end Session

/-! ## Placements -/

namespace Placed

open Session (Carries Settles Builds Grows)

variable {p : Placed} {s t u : Session} {v w : Screen} {c : Control}

/-- The widgets of the placement are there, and none of them stands below an indicator. Two of them
are a button that shows a text and the label inside. -/
structure Made (p : Placed) (s : Screen) : Prop where
  outer : s.kind? p.outer = some p.kind.widget
  around : ∃ h k, s.parent? p.outer = some h ∧ s.kind? h = some k ∧ k ≠ .indicator
  inner : p.inner = p.outer ∨ p.kind = .button ∧ p.showsText = true ∧
    s.kind? p.inner = some .label ∧ s.parent? p.inner = some p.outer

theorem Made.carry (hm : p.Made v) (hv : v.Sound) (hc : v.Upholds w) : p.Made w := by
  obtain ⟨hvw, hkind⟩ := hc hv
  obtain ⟨h, k, hp, hk, hn⟩ := hm.around
  have hparent {k h : Handle} {kind : WidgetKind} (hk : v.kind? k = some kind)
      (hp : v.parent? k = some h) : w.parent? k = some h :=
    (hvw.parent k (Screen.isLive_of_kind? hk)).trans hp
  refine ⟨hkind _ _ hm.outer, ⟨h, k, hparent hm.outer hp, hkind _ _ hk, hn⟩, ?_⟩
  rcases hm.inner with he | ⟨hbutton, hshows, hk, hp⟩
  · exact .inl he
  · exact .inr ⟨hbutton, hshows, hkind _ _ hk, hparent hk hp⟩

theorem Made.live (hm : p.Made v) : v.isLive p.outer = true ∧ v.isLive p.inner = true := by
  have houter := Screen.isLive_of_kind? hm.outer
  refine ⟨houter, ?_⟩
  rcases hm.inner with he | ⟨-, -, hk, -⟩
  · rw [he]
    exact houter
  · exact Screen.isLive_of_kind? hk

/-- No control has the widgets of the placement. -/
def Unowned (p : Placed) (s : Session) : Prop :=
  ∀ c ∈ s.controls, ¬ c.Owns p.outer ∧ ¬ c.Owns p.inner

theorem Unowned.rewire (hp : p.Unowned s)
    (hw : t.controls.map Control.wiring = s.controls.map Control.wiring) : p.Unowned t := by
  intro d hd
  obtain ⟨c, hc, he⟩ := Session.wiring_mem hw hd
  rw [Control.owns_rewire he, Control.owns_rewire he]
  exact hp c hc

/-- Every widget of a styled kind was there before or belongs to one of the placements. -/
def Covers (ps : List Placed) (s t : Screen) : Prop :=
  ∀ h k, t.kind? h = some k → k.isStyled = true →
    s.kind? h = some k ∨ ∃ p ∈ ps, h = p.outer ∨ h = p.inner

namespace Covers

variable {ps qs : List Placed} {x : Screen}

theorem trans (h₁ : Covers ps v w) (h₂ : Covers qs w x) : Covers (ps ++ qs) v x := by
  intro h k hk hn
  rcases h₂ h k hk hn with hold | ⟨q, hq, ho⟩
  · rcases h₁ h k hold hn with hold | ⟨p, hp, ho⟩
    · exact .inl hold
    · exact .inr ⟨p, List.mem_append_left _ hp, ho⟩
  · exact .inr ⟨q, List.mem_append_right _ hq, ho⟩

theorem more (hc : Covers ps v w) (ha : w.AddsNone x) : Covers ps v x :=
  fun h k hk hn => hc h k (ha h k hk hn) hn

theorem none (ha : v.AddsNone w) : Covers [] v w := fun h k hk hn => .inl (ha h k hk hn)

end Covers

/-- The widgets of a placement are made, no others of a styled kind, and wait for their control. -/
structure Drafted (p : Placed) (s t : Session) : Prop where
  sound : t.screen.Sound
  made : p.Made t.screen
  covers : Covers [p] s.screen t.screen
  owned : ∀ c ∈ t.controls, ∀ h, c.Owns h → t.screen.isLive h = true
  unowned : p.Unowned t
  store : t.store = s.store

theorem Drafted.carry (hd : p.Drafted s t) (hc : Carries t u) : p.Drafted s u where
  sound := hc.screen.sound hd.sound
  made := hd.made.carry hd.sound hc.screen.upholds
  covers := hd.covers.more (hc.screen.addsNone hd.sound)
  owned d hdm h ho := by
    obtain ⟨c, hcm, hw⟩ := Session.wiring_mem hc.controls hdm
    exact (hc.screen.upholds hd.sound).1.live h (hd.owned c hcm h ((Control.owns_rewire hw).mp ho))
  unowned := hd.unowned.rewire hc.controls
  store := hc.store.trans hd.store

/-- The widgets of the placement are there in the paint of its inline attributes, and the control
of the element has them, which may be missing only where it has nothing to follow. -/
structure Stands (p : Placed) (t : Session) : Prop where
  made : p.Made t.screen
  painted : t.screen.Painted p.outer p.inner (p.inline t)
  served : (∃ c ∈ t.controls, c.Serves p) ∨ p.isBound = false ∧ p.Unowned t

theorem inline_congr (p : Placed) (hs : t.store = s.store) : p.inline t = p.inline s := by
  simp only [inline, Session.writtenColor, hs]

theorem Stands.settle (hp : p.Stands t) (ht : t.screen.Sound) (hs : Settles t u) :
    p.Stands u where
  made := hp.made.carry ht hs.screen.carries.upholds
  painted := by
    rw [p.inline_congr hs.store]
    exact hp.painted.samePaint hs.screen.paint
  served := by
    rcases hp.served with ⟨c, hc, hserves⟩ | ⟨hb, hu⟩
    · obtain ⟨d, hd, hw⟩ := Session.wiring_mem hs.controls.symm hc
      exact .inl ⟨d, hd, hserves.rewire hw.symm⟩
    · exact .inr ⟨hb, hu.rewire hs.controls⟩

/-! ## Recording the control -/

theorem veiled_settles (s : Session) (c : Control) : s.screen.Settles (s.veiled c) :=
  (Screen.settles_setHidden s.screen c.target true).ite

/-- The placement stands, and nothing else of a styled kind is new. -/
structure Joins (p : Placed) (s t : Session) : Prop where
  stands : p.Stands t
  covers : Covers [p] s.screen t.screen

/-- The control of the element is recorded if it has an id, and without one it has nothing to
follow. -/
theorem Drafted.register (hd : p.Drafted s t)
    (hpaint : t.screen.Painted p.outer p.inner (p.inline s)) (hc : c.Serves p)
    (hid : c.id = "" → p.isBound = false) : p.Joins s (t.register c).2 := by
  rw [← p.inline_congr hd.store] at hpaint
  by_cases he : c.id = ""
  · rw [Session.register, if_pos he]
    exact ⟨⟨hd.made, hpaint, .inr ⟨hid he, hd.unowned⟩⟩, hd.covers⟩
  · obtain ⟨z, waiting, hr⟩ := t.register_eq c he
    have hveil := veiled_settles t c
    rw [hr]
    exact
      { stands :=
          { made := hd.made.carry hd.sound hveil.carries.upholds
            painted := hpaint.samePaint hveil.paint
            served := .inl ⟨{ c with zIndex := z }, List.mem_concat_self, hc.rewire rfl⟩ }
        covers := hd.covers.more (hveil.carries.addsNone hd.sound) }

theorem Drafted.registerWith (hd : p.Drafted s t)
    (hpaint : t.screen.Painted p.outer p.inner (p.inline s)) (hc : c.Serves p)
    (hid : c.id = "" → p.isBound = false) (h : Handle) (kinds : List EventKind)
    (listener : Nat → Listener) : p.Joins s (t.registerWith c h kinds listener) := by
  have hr := hd.register hpaint hc hid
  unfold Session.registerWith
  split
  · next i u he =>
    rw [he] at hr
    exact ⟨⟨hr.stands.made, hr.stands.painted, hr.stands.served⟩, hr.covers⟩
  · next u he =>
    rw [he] at hr
    exact hr

/-- The control of another element makes no difference. -/
theorem Stands.register (hp : p.Stands t) (ht : t.screen.Sound)
    (hc : ¬ c.Owns p.outer ∧ ¬ c.Owns p.inner) : p.Stands (t.register c).2 := by
  by_cases he : c.id = ""
  · rw [Session.register, if_pos he]
    exact hp
  · obtain ⟨z, waiting, hr⟩ := t.register_eq c he
    have hveil := veiled_settles t c
    rw [hr]
    refine ⟨hp.made.carry ht hveil.carries.upholds, hp.painted.samePaint hveil.paint, ?_⟩
    rcases hp.served with ⟨d, hd, hserves⟩ | ⟨hb, hu⟩
    · exact .inl ⟨d, List.mem_append_left _ hd, hserves⟩
    · refine .inr ⟨hb, fun d hd => ?_⟩
      rcases List.mem_append.mp hd with hd | hd
      · exact hu d hd
      · rw [List.mem_singleton.mp hd]
        exact hc

/-- What is built later makes no difference. -/
theorem Stands.extend (hp : p.Stands t) (ht : t.screen.Sound) (hb : Builds t u)
    (hg : Grows t u) : p.Stands u := by
  have hupholds : t.screen.Upholds u.screen :=
    fun hs => ⟨hg.moves.screen hs, hb.screen.retains.kind⟩
  have hstyle {k : Handle} (hl : t.screen.isLive k = true) :
      u.screen.style k = t.screen.style k := by
    obtain ⟨w, hw⟩ := Screen.isLive_iff.mp hl
    rw [Screen.style, Screen.style, hw, hb.screen.widget k w hw]
  obtain ⟨houter, hinner⟩ := hp.made.live
  refine ⟨hp.made.carry ht hupholds, ?_, ?_⟩
  · rw [p.inline_congr hb.store]
    exact hp.painted.congr (congrArg Style.paint (hstyle houter))
      (congrArg Style.paint (hstyle hinner))
  · obtain ⟨new, he, -, hnew⟩ := hb.controls
    rw [Unowned, he]
    rcases hp.served with ⟨c, hc, hserves⟩ | ⟨hbound, hu⟩
    · exact .inl ⟨c, List.mem_append_left _ hc, hserves⟩
    · refine .inr ⟨hbound, fun c hc => ?_⟩
      rcases List.mem_append.mp hc with hc | hc
      · exact hu c hc
      · have hfresh {k : Handle} (hl : t.screen.isLive k = true) : ¬ c.Owns k := by
          intro ho
          rw [Screen.isLive, (hnew c hc).fresh k ho] at hl
          cases hl
        exact ⟨hfresh houter, hfresh hinner⟩

end Placed
end ScreenMarkup
