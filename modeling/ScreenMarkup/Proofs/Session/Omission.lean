import ScreenMarkup.Proofs.Document.Omission
import ScreenMarkup.Proofs.Session.Refusal

/-!
# Building without what is refused

One run builds a list of elements, another one the list without some canvases
that are refused. Both stay side by side: the first session is a copy of the
second one, and the handles that were copied before are copied as they were.
-/

set_option autoImplicit false

namespace ScreenMarkup

open Session (buildWidget buildAll buildTabs)

/-- What is built of elements of a level. -/
def Level.build (l : Level) (parent : Handle) (es : List Element) (s : Session) : Session :=
  match l with
  | content => buildAll parent es s
  | tabs => buildTabs parent es s
  | _ => s

namespace Level

theorem build_nil (l : Level) (parent : Handle) (s : Session) : l.build parent [] s = s := by
  cases l with
  | content => exact buildAll.eq_1 parent s
  | tabs => exact buildTabs.eq_1 parent s
  | _ => rfl

theorem build_cons (l : Level) (parent : Handle) (e : Element) (es : List Element) (s : Session) :
    l.build parent (e :: es) s = l.build parent es (l.build parent [e] s) := by
  obtain ⟨tag, attrs, text, children, inner⟩ := e
  cases l with
  | content => simp only [build, buildAll]
  | tabs =>
    simp only [build, buildTabs]
    split <;> rfl
  | _ => rfl

theorem build_content (parent : Handle) (e : Element) (s : Session) :
    content.build parent [e] s = buildWidget parent e s := by
  simp only [build, buildAll]

end Level

namespace Session

variable {c : Config} {ρ σ : Renaming} {s s₁ s₂ t t₁ t₂ : Session} {h parent view : Handle}
  {e : Element} {es es' : List Element} {l : Level}

theorem buildWidget_tabs (he : e.tag = "tabs") (hv : s.createTabView e parent = (view, t)) :
    buildWidget parent e s = (buildTabs view e.children t).finishTabs e view := by
  obtain ⟨tag, attrs, text, children, inner⟩ := e
  cases he
  rw [buildWidget]
  simp only [ControlKind.ofTag?, hv]

theorem buildTabs_tab (he : e.tag = "tab") (hv : s.createTab e view = (h, t)) :
    buildTabs view [e] s = buildAll h e.children t := by
  obtain ⟨tag, attrs, text, children, inner⟩ := e
  cases he
  simp only [buildTabs, if_pos, hv]

/-! ## What building leaves alone -/

/-- Variables and configuration stay. -/
structure Spares (s t : Session) : Prop where
  config : t.config = s.config
  store : t.store = s.store

theorem Spares.refl (s : Session) : Spares s s := ⟨rfl, rfl⟩

theorem Spares.trans (h₁ : Spares s s₁) (h₂ : Spares s₁ s₂) : Spares s s₂ :=
  ⟨h₂.config.trans h₁.config, h₂.store.trans h₁.store⟩

theorem register_spares (s : Session) (d : Control) : Spares s (s.register d).2 := by
  by_cases hid : d.id = ""
  · rw [register, if_pos hid]
    exact Spares.refl s
  · obtain ⟨z, waiting, he⟩ := s.register_eq d hid
    rw [he]
    exact ⟨rfl, rfl⟩

theorem constructing_spares : Constructing (fun _ _ => True) Spares where
  steps := ⟨fun _ => trivial, fun _ _ => trivial, fun _ _ _ _ => trivial⟩
  trans := Spares.trans
  redraw _ _ _ := ⟨rfl, rfl⟩
  number _ _ := ⟨rfl, rfl⟩
  create hc := by
    rw [create_eq] at hc
    cases hc
    exact ⟨rfl, rfl⟩
  discard hc _ _ := by
    rw [create_eq] at hc
    cases hc
    exact ⟨rfl, rfl⟩
  keepZIndex s h z := by
    unfold keepZIndex
    split <;> exact ⟨rfl, rfl⟩
  register s c _ _ := register_spares s c
  registerWith s d _ _ _ _ _ _ _ _ _ := by
    have hrecorded := register_spares s d
    unfold registerWith
    split
    · next i t he =>
      rw [he] at hrecorded
      exact ⟨hrecorded.config, hrecorded.store⟩
    · next t he =>
      rw [he] at hrecorded
      exact hrecorded

/-! ## Where building goes on -/

/-- A widget that elements are built in. -/
structure Prepared (c : Config) (s : Session) (h : Handle) : Prop where
  grounded : s.Grounded
  config : s.config = c
  holds : s.Holds h

namespace Prepared

theorem live (hs : s.Prepared c h) : s.screen.isLive h = true := by
  obtain ⟨k, hk, -⟩ := hs.holds
  exact Screen.isLive_of_kind? hk

theorem buildWidget (hs : s.Prepared c h) (e : Element) :
    (Session.buildWidget h e s).Prepared c h where
  grounded := hs.grounded.buildWidget hs.holds e
  config := (constructing_spares.buildWidget h e s).config.trans hs.config
  holds := (buildWidget_builds e hs.grounded.wellFormed hs.holds).holds hs.holds

theorem buildTabs (hs : s.Prepared c h) (es : List Element) :
    (Session.buildTabs h es s).Prepared c h where
  grounded := hs.grounded.buildTabs hs.holds es
  config := (constructing_spares.buildTabs h es s).config.trans hs.config
  holds := (buildTabs_builds es hs.grounded.wellFormed hs.holds).holds hs.holds

/-- One widget stays prepared while another one is filled. -/
theorem buildAll (hs : s.Prepared c h) (hk : s.Holds parent) (es : List Element) :
    (Session.buildAll parent es s).Prepared c h where
  grounded := hs.grounded.buildAll hk es
  config := (constructing_spares.buildAll parent es s).config.trans hs.config
  holds := (buildAll_builds es hs.grounded.wellFormed hk).holds hs.holds

/-- Building goes on in the same widget. -/
theorem step (hs : s.Prepared c h) (l : Level) (e : Element) :
    (l.build h [e] s).Prepared c h := by
  cases l with
  | content =>
    rw [Level.build_content]
    exact hs.buildWidget e
  | tabs => exact hs.buildTabs [e]
  | _ => exact hs

theorem createTabView (hs : s.Prepared c h) (hv : s.createTabView e h = (view, t)) :
    t.Prepared c view :=
  have ⟨hground, hholds⟩ := hs.grounded.createTabView hs.holds hv
  ⟨hground, (constructing_spares.createTabView hv).config.trans hs.config, hholds⟩

theorem createTab (hs : s.Prepared c view) (hv : s.createTab e view = (h, t)) :
    t.Prepared c h :=
  have ⟨hground, hholds⟩ := hs.grounded.createTab hs.holds hv
  ⟨hground, (constructing_spares.createTab hv).config.trans hs.config, hholds⟩

end Prepared

/-! ## Two runs -/

/-- Two runs have gone on. They end in copies, and the widgets that were there before are copied as
they were. -/
def Follows (ρ : Renaming) (t t₁ s₁ : Session) : Prop :=
  ∃ σ, Copies σ t₁ s₁ ∧ ∀ k, t.screen.isLive k = true → σ k = ρ k ∧ t₁.screen.isLive k = true

theorem Follows.refl (hc : Copies ρ t s) : Follows ρ t t s := ⟨ρ, hc, fun _ hk => ⟨rfl, hk⟩⟩

theorem Follows.trans (h₁ : Follows ρ t t₁ s₁)
    (h₂ : ∀ σ, Copies σ t₁ s₁ → (∀ k, t.screen.isLive k = true → σ k = ρ k) →
      Follows σ t₁ t₂ s₂) : Follows ρ t t₂ s₂ := by
  obtain ⟨σ, hc, hsame⟩ := h₁
  obtain ⟨τ, hc₂, hsame₂⟩ := h₂ σ hc fun k hk => (hsame k hk).1
  refine ⟨τ, hc₂, fun k hk => ?_⟩
  obtain ⟨he, hlive⟩ := hsame k hk
  obtain ⟨he₂, hlive₂⟩ := hsame₂ k hlive
  exact ⟨he₂.trans he, hlive₂⟩

/-- Both runs do the same, and nothing is taken away. -/
theorem Copies.follows (hc : Copies ρ t s) (hc₁ : Copies ρ t₁ s₁)
    (hlive : ∀ k, s.screen.isLive k = true → s₁.screen.isLive k = true) : Follows ρ t t₁ s₁ := by
  refine ⟨ρ, hc₁, fun k hk => ⟨rfl, ?_⟩⟩
  rw [← hc₁.screen.isLive]
  exact hlive _ ((hc.screen.isLive k).trans hk)

/-- One run skips what the other one does in vain. -/
theorem Copies.follows_refused (hc : Copies ρ t s) (hs : s.Grounded) (he : s.Refuses e)
    (parent : Handle) : Follows ρ t t (Session.buildWidget parent e s) := by
  refine ⟨_, hc.trans (hs.copies_refused he parent), fun k hk => ⟨?_, hk⟩⟩
  exact hs.linked.sound.skipping_live ((hc.screen.isLive k).trans hk)

theorem Copies.build (hc : Copies ρ t s) (l : Level) (parent : Handle) (es : List Element) :
    Copies ρ (l.build parent es t) (l.build (ρ parent) es s) := by
  cases l with
  | content => exact hc.buildAll es
  | tabs => exact hc.buildTabs es
  | _ => exact hc

theorem Copies.follows_step (hc : Copies ρ t s) (hs : s.Prepared c (ρ parent)) (l : Level)
    (e : Element) : Follows ρ t (l.build parent [e] t) (l.build (ρ parent) [e] s) := by
  refine hc.follows (hc.build l parent [e]) ?_
  have hlinks : Links s (l.build (ρ parent) [e] s) := by
    cases l with
    | content => exact constructing_links.buildAll (ρ parent) [e] s
    | tabs => exact constructing_links.buildTabs (ρ parent) [e] s
    | _ => exact Links.refl s
  exact (hlinks.screen hs.grounded.linked).2

/-- What is built next in a widget goes by the new renaming, which is the old one there. -/
theorem Follows.next (h₁ : Follows ρ t t₁ s₁) (hparent : t.screen.isLive parent = true)
    (hs₁ : s₁.Prepared c (ρ parent))
    (h₂ : ∀ σ, Copies σ t₁ s₁ → s₁.Prepared c (σ parent) →
      Follows σ t₁ (l.build parent es' t₁) (l.build (σ parent) es s₁)) :
    Follows ρ t (l.build parent es' t₁) (l.build (ρ parent) es s₁) := by
  refine h₁.trans fun σ hσ hsame => ?_
  rw [← hsame parent hparent] at hs₁ ⊢
  exact h₂ σ hσ hs₁

theorem Follows.earlier (h : Follows ρ t₁ t₂ s₂)
    (hlive : ∀ k, t.screen.isLive k = true → t₁.screen.isLive k = true) : Follows ρ t t₂ s₂ := by
  obtain ⟨σ, hσ, hsame⟩ := h
  exact ⟨σ, hσ, fun k hk => hsame k (hlive k hk)⟩

/-- The recording of a set of tabs, when its tabs are built. -/
theorem Copies.follows_finishTabs (hc : Copies ρ t s) (hs : s.Grounded) (e : Element)
    (view : Handle) : Follows ρ t (t.finishTabs e view) (s.finishTabs e (ρ view)) :=
  hc.follows (hc.finishTabs e view)
    ((constructing_links.finishTabs s e (ρ view)).screen hs.linked).2

/-- A set of tabs with other elements in its tabs. -/
theorem follows_tabs {cs : List Element} (he : e.tag = "tabs") (hc : Copies ρ t s)
    (hs : s.Prepared c (ρ parent))
    (htabs : ∀ {t s view}, Copies ρ t s → s.Prepared c (ρ view) →
      Follows ρ t (buildTabs view cs t) (buildTabs (ρ view) e.children s)) :
    Follows ρ t (buildWidget parent { e with children := cs } t) (buildWidget (ρ parent) e s) := by
  obtain ⟨view, t₁, s₁, ht, hv, hc₁⟩ := hc.createTabView e parent
  have hmade : Follows ρ t t₁ s₁ := hc.follows hc₁
    ((constructing_links.createTabView hv).screen hs.grounded.linked).2
  have hs₁ : s₁.Prepared c (ρ view) := hs.createTabView hv
  have hview : t₁.screen.isLive view = true := (hc₁.screen.isLive view).symm.trans hs₁.live
  have hbuilt := htabs hc₁ hs₁
  have hs₂ := (hs₁.buildTabs e.children).grounded
  rw [buildWidget_tabs he hv, buildWidget_tabs (e := { e with children := cs }) he ht]
  generalize buildTabs (ρ view) e.children s₁ = s₂ at hbuilt hs₂
  have hdone : Follows ρ t₁ ((buildTabs view cs t₁).finishTabs e view)
      (s₂.finishTabs e (ρ view)) := hbuilt.trans fun σ hσ hsame => by
    rw [← hsame view hview]
    exact hσ.follows_finishTabs hs₂ e view
  obtain ⟨_, _, hkept⟩ := hmade
  exact hdone.earlier fun k hk => (hkept k hk).2

/-- A tab with other elements in it. -/
theorem follows_tab {cs : List Element} (he : e.tag = "tab") (hc : Copies ρ t s)
    (hs : s.Prepared c (ρ view))
    (hall : ∀ {t s h}, Copies ρ t s → s.Prepared c (ρ h) →
      Follows ρ t (buildAll h cs t) (buildAll (ρ h) e.children s)) :
    Follows ρ t (buildTabs view [{ e with children := cs }] t) (buildTabs (ρ view) [e] s) := by
  obtain ⟨h, t₁, s₁, ht, hv, hc₁⟩ := hc.createTab e view
  obtain ⟨_, _, hkept⟩ := hc.follows hc₁
    ((constructing_links.createTab hv).screen hs.grounded.linked).2
  rw [buildTabs_tab he hv, buildTabs_tab (e := { e with children := cs }) he ht]
  exact (hall hc₁ (hs.createTab hv)).earlier fun k hk => (hkept k hk).2

/-- A refused canvas may be left out wherever widgets are built. -/
theorem follows_build {p : Element → Prop} (h : Omits p l es es')
    (hp : ∀ e, p e → ∀ u : Session, u.config = c → u.Refuses e) (hc : Copies ρ t s)
    (hs : s.Prepared c (ρ parent)) :
    Follows ρ t (l.build parent es' t) (l.build (ρ parent) es s) := by
  -- on what is left out, for all renamings: each refused canvas skips one more handle, and the
  -- widget that is built in keeps its name
  induction h generalizing ρ t s parent with
  | nil l =>
    rw [l.build_nil, l.build_nil]
    exact Follows.refl hc
  | @keep l es es' e _ ih =>
    rw [l.build_cons parent e, l.build_cons (ρ parent) e]
    exact (hc.follows_step hs l e).next ((hc.screen.isLive parent).symm.trans hs.live)
      (hs.step l e) fun σ hσ hs₁ => ih hσ hs₁
  | @leave l e es es' hl he _ ih =>
    cases l with
    | content =>
      rw [Level.build_cons, Level.build_content]
      exact (hc.follows_refused hs.grounded (hp e he s hs.config) (ρ parent)).next
        (l := .content) ((hc.screen.isLive parent).symm.trans hs.live) (hs.buildWidget e)
        fun σ hσ hs₁ => ih hσ hs₁
    | tabs => cases hl
    | _ => exact Follows.refl hc
  | @inside l m e cs es es' hm he _ ihc ih =>
    have hparent := (hc.screen.isLive parent).symm.trans hs.live
    have hfirst : Follows ρ t (l.build parent [{ e with children := cs }] t)
        (l.build (ρ parent) [e] s) := by
      cases l with
      | content =>
        rw [Level.build_content, Level.build_content]
        simp only [Level.below?] at hm
        split at hm
        · next htag =>
          cases hm
          exact follows_tabs htag hc hs fun hc hs => ihc hc hs
        · cases hm
      | tabs =>
        simp only [Level.below?] at hm
        split at hm
        · next htag =>
          cases hm
          exact follows_tab htag hc hs fun hc hs => ihc hc hs
        · cases hm
      | _ => exact Follows.refl hc
    rw [l.build_cons parent { e with children := cs }, l.build_cons (ρ parent) e]
    exact hfirst.next hparent (hs.step l e) fun σ hσ hs₁ => ih hσ hs₁

end Session
end ScreenMarkup
