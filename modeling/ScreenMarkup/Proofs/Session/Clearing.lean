import Mathlib.Logic.Function.Basic
import ScreenMarkup.Proofs.Screen.Clearing
import ScreenMarkup.Proofs.Session.CopyRendering
import ScreenMarkup.Proofs.Session.Pages
import ScreenMarkup.Proofs.Session.TopRuns

/-!
# Documents on a cleared session

A cleared session keeps its variables, but of the documents that it has shown
it remembers no more than which places of the screen were used. So it is a
copy of a new session with these variables, and so are the documents that are
rendered on both. Hence all cleared sessions with the same configuration and
the same variables render a document alike, up to the handles of the widgets.
-/

set_option autoImplicit false

namespace ScreenMarkup.Session

variable {ρ τ : Renaming} {r s t : Session}

/-! ## Sessions that differ in handles -/

/-- `t` is `s` with other handles: it has the same tree of widgets, and its controls, listeners,
pages and groups name corresponding widgets. The rest of what a document leaves is the same. -/
structure Alike (f : Handle → Handle) (s t : Session) : Prop where
  top : f Handle.screen = Handle.screen
  injective : ∀ h k, s.screen.isLive h = true → s.screen.isLive k = true → f h = f k → h = k
  tree : t.screen.shape = s.screen.shape.rename f
  widget : ∀ h w, s.screen.widget? h = some w → t.screen.widget? (f h) = some (w.rename f)
  controls : t.controls = s.controls.map (Control.rename f)
  router : t.router = s.router.rename f
  nav : t.nav = s.nav.rename f
  pendingZ : t.pendingZ = s.pendingZ.map (Prod.map f id)
  focusedInput : t.focusedInput = s.focusedInput.map f
  head : t.head = s.head
  vars : t.store.vars = s.store.vars
  sheet : t.sheet = s.sheet
  autoId : t.autoId = s.autoId
  config : t.config = s.config

/-- The handles of a copy are those of the original, renamed. -/
theorem Copies.exists_original (hc : Copies ρ s t) {h : Handle} (hl : t.screen.isLive h = true) :
    ∃ k, h = ρ k ∧ s.screen.isLive k = true := by
  have hin := (hc.screen.sound'.live h).mpr hl
  rw [hc.screen.shape, Branch.handles_rename] at hin
  obtain ⟨k, hk, rfl⟩ := List.mem_map.mp hin
  exact ⟨k, rfl, (hc.screen.sound.live k).mp hk⟩

/-- A copy differs from the original in handles only. -/
theorem Copies.alike_original (hc : Copies ρ s t) : Alike ρ s t :=
  { hc with
    top := ρ.screen
    injective := fun _ _ _ _ he => ρ.injective he
    tree := hc.screen.shape
    widget := fun h w hw => by rw [hc.screen.widget, hw, Option.map_some] }

/-- Two copies of one session differ in handles only: from the one back to the session, and on to
the other. -/
theorem Copies.alike (hs : Copies ρ r s) (ht : Copies τ r t) : ∃ f, Alike f s t := by
  let f : Handle → Handle := τ ∘ Function.invFun ρ
  have hf (h : Handle) : f (ρ h) = τ h := congrArg τ (Function.leftInverse_invFun ρ.injective h)
  have hcomp : f ∘ ρ = τ := funext hf
  have htop : f Handle.screen = Handle.screen := by
    rw [← ρ.screen, hf, ρ.screen, τ.screen]
  have hinjective (h k : Handle) (hh : s.screen.isLive h = true) (hk : s.screen.isLive k = true)
      (he : f h = f k) : h = k := by
    obtain ⟨h, rfl, -⟩ := hs.exists_original hh
    obtain ⟨k, rfl, -⟩ := hs.exists_original hk
    rw [hf, hf] at he
    rw [τ.injective he]
  have hwidget (h : Handle) (w : Widget) (hw : s.screen.widget? h = some w) :
      t.screen.widget? (f h) = some (w.rename f) := by
    obtain ⟨h, rfl, -⟩ := hs.exists_original (Screen.isLive_iff.mpr ⟨w, hw⟩)
    rw [hs.screen.widget] at hw
    obtain ⟨v, hv, rfl⟩ := Option.map_eq_some_iff.mp hw
    rw [hf, ht.screen.widget, hv, Option.map_some, Widget.rename_rename, hcomp]
  have hcontrols : t.controls = s.controls.map (Control.rename f) := by
    rw [ht.controls, hs.controls, List.map_map, ← hcomp]
    exact List.map_congr_left fun c _ => (Control.rename_rename ρ f c).symm
  have hpendingZ : t.pendingZ = s.pendingZ.map (Prod.map f id) := by
    rw [ht.pendingZ, hs.pendingZ, List.map_map, Prod.map_comp_map, hcomp]
    rfl
  exact ⟨f,
    { top := htop
      injective := hinjective
      tree := by rw [ht.screen.shape, hs.screen.shape, Branch.rename_rename, hcomp]
      widget := hwidget
      controls := hcontrols
      router := by rw [ht.router, hs.router, Router.rename_rename, hcomp]
      nav := by rw [ht.nav, hs.nav, Navigation.rename_rename, hcomp]
      pendingZ := hpendingZ
      focusedInput := by rw [ht.focusedInput, hs.focusedInput, Option.map_map, hcomp]
      head := ht.head.trans hs.head.symm
      vars := ht.vars.trans hs.vars.symm
      sheet := ht.sheet.trans hs.sheet.symm
      autoId := ht.autoId.trans hs.autoId.symm
      config := ht.config.trans hs.config.symm }⟩

/-! ## What a document declares -/

/-- The variables after the head of a document is read. -/
def declared (markup : String) (vars : List (String × Variable)) : List (String × Variable) :=
  Store.putAll (Head.declarations (app markup)) vars

theorem declared_declared (markup : String) (vars : List (String × Variable)) :
    declared markup (declared markup vars) = declared markup vars :=
  Store.putAll_putAll _ vars

/-- Variables that a document declares may be declared before its head is read. -/
theorem read_declared (markup : String) (store : Store) (sheet : Stylesheet) (iconDir : String) :
    Head.read (app markup) { store with vars := declared markup store.vars } sheet iconDir =
      Head.read (app markup) store sheet iconDir := by
  rw [Head.read_eq, Head.read_eq _ store]
  show (_, { store with vars := declared markup (declared markup store.vars) }, _) = _
  rw [declared_declared]
  rfl

theorem showFirst_rest (s : Session) :
    s.showFirst.store = s.store ∧ s.showFirst.config = s.config := by
  rcases showFirst_display s with he | ⟨path, m, v, -, he⟩
  · rw [he]
    exact ⟨rfl, rfl⟩
  · rw [he]
    exact ⟨rfl, rfl⟩

/-- Rendering a document changes no variable apart from what its head declares. -/
theorem render_vars (hs : s.WellFormed) (markup : String) :
    (s.render markup).store.vars = declared markup s.store.vars := by
  obtain ⟨head, store, sheet, u, v, hread, hl, -, hb, he⟩ := prepare_keeps (P := fun _ _ => True)
    (fun _ => trivial) (fun _ _ _ _ _ => trivial) (fun _ _ _ => trivial) (fun _ _ _ => trivial)
    hs markup
  rw [Head.read_eq] at hread
  have hvars : declared markup s.store.vars = store.vars := congrArg (·.2.1.vars) hread
  have hstore : (s.prepare markup).store = store := by
    rw [he]
    show v.store = store
    rw [hb.store, hl.rest]
  rw [render_eq, (showFirst_rest _).1, hstore, hvars]

theorem render_config (hs : s.WellFormed) (markup : String) :
    (s.render markup).config = s.config := by
  obtain ⟨head, store, sheet, u, v, hl, hb, he⟩ := prepare_spec hs markup
  rw [render_eq, (showFirst_rest _).2, he, hb.rest, hl.rest]

/-- Rendering replaces the head and the rules, and needs the store for the head only. -/
theorem render_congr {head : Head} {store : Store} {sheet : Stylesheet} {markup : String}
    (hread : Head.read (app markup) store {} s.config.iconDir =
      Head.read (app markup) s.store {} s.config.iconDir) :
    ({ s with head := head, store := store, sheet := sheet } : Session).render markup =
      s.render markup := by
  unfold Session.render
  dsimp only
  rw [show ((Markup.parse markup).find? "app").getD (Markup.parse markup) = app markup from rfl,
    hread]

/-! ## Clearing -/

/-- The session that a document is rendered on, as a function of what it depends on. -/
def blank (config : Config) (vars : List (String × Variable)) : Session :=
  { Session.new config with store := { vars := vars } }

theorem clear_new (config : Config) : (Session.new config).clear = Session.new config := rfl

theorem exists_copies_clear (hs : s.WellFormed) (ht : s.Topped blankTop) :
    ∃ ρ, Copies ρ
      { blank s.config s.store.vars with head := s.clear.head, sheet := s.sheet } s.clear :=
  have hsound : s.clear.screen.Sound := hs.clear.screen.toSound
  ⟨hsound.landed,
    { screen := hsound.copies_new hs.screen.clean_shape (ht.clear hs).widget
      config := rfl
      vars := rfl
      sheet := rfl
      controls := rfl
      router := rfl
      nav := rfl
      head := rfl
      pendingZ := rfl
      autoId := rfl
      focusedInput := rfl }⟩

/-- A document on a cleared session is a copy of the same document on a new one, where its variables
are declared already. -/
theorem exists_copies_render (hs : s.WellFormed) (ht : s.Topped blankTop) (markup : String) :
    ∃ ρ, Copies ρ ((blank s.config (declared markup s.store.vars)).render markup)
      (s.clear.render markup) := by
  obtain ⟨ρ, hc⟩ := exists_copies_clear hs ht
  have hdeclared : (blank s.config (declared markup s.store.vars)).render markup =
      (blank s.config s.store.vars).render markup :=
    render_congr (read_declared markup (blank s.config s.store.vars).store {} _)
  have hread : ({ blank s.config s.store.vars with
      head := s.clear.head, sheet := s.sheet } : Session).render markup =
        (blank s.config s.store.vars).render markup := render_congr rfl
  have hrender := hc.render markup
  rw [hread, ← hdeclared] at hrender
  exact ⟨ρ, hrender⟩

/-- What was rendered, clicked, focused or shown before is forgotten: on two cleared sessions, a
document differs in handles only. -/
theorem exists_alike_render (hs : s.WellFormed) (hst : s.Topped blankTop) (ht : t.WellFormed)
    (htt : t.Topped blankTop) (hconfig : t.config = s.config) (markup : String)
    (hvars : declared markup t.store.vars = declared markup s.store.vars) :
    ∃ f, Alike f (s.clear.render markup) (t.clear.render markup) := by
  obtain ⟨ρ, hρ⟩ := exists_copies_render hs hst markup
  obtain ⟨τ, hτ⟩ := exists_copies_render ht htt markup
  rw [hconfig, hvars] at hτ
  exact hρ.alike hτ

theorem exists_alike_init (hs : s.WellFormed) (ht : s.Topped blankTop) (markup : String) :
    ∃ f, Alike f ((Session.new s.config).render markup) (s.init.render markup) := by
  let t : Session := { s with store := s.store.clear }
  have hinit : s.init.render markup = t.clear.render markup := render_congr (s := t.clear) rfl
  have hforget : t.WellFormed := ⟨hs.screen, hs.fits, hs.apart, hs.nav, hs.keyboard⟩
  rw [hinit, ← clear_new s.config]
  exact exists_alike_render (wellFormed_new s.config) (Topped.new s.config) hforget
    ⟨ht.widget, ht.unowned, ht.focused⟩ rfl markup rfl

/-- Two sessions with the same configuration and the same variables, however they were used, render
each document alike once they are cleared: with equally many controls, and with the same tree,
listeners, pages, metadata and variables up to handles. In particular it makes no difference that
the document was rendered before, and a session is new again when it is reset. -/
theorem clear_render_alike {c₁ c₂ : Config} {os₁ os₂ : List Operation}
    (h₁ : ∀ o ∈ os₁, o.sparesTop = true) (h₂ : ∀ o ∈ os₂, o.sparesTop = true)
    (hconfig : ((Session.new c₂).after os₂).config = ((Session.new c₁).after os₁).config)
    (hvars : ((Session.new c₂).after os₂).store.vars = ((Session.new c₁).after os₁).store.vars)
    (markup : String) :
    let s := (Session.new c₁).after os₁
    let t := (Session.new c₂).after os₂
    ((t.clear.render markup).controls.length = (s.clear.render markup).controls.length ∧
      ∃ f, Alike f (s.clear.render markup) (t.clear.render markup)) ∧
    (∃ f, Alike f (s.clear.render markup) ((s.render markup).clear.render markup)) ∧
    (∃ f, Alike f ((Session.new c₁).render markup)
      (((Session.new c₁).render markup).clear.render markup)) ∧
    ∃ f, Alike f ((Session.new s.config).render markup) (s.init.render markup) := by
  intro s t
  have hrun {c : Config} {os : List Operation} (ho : ∀ o ∈ os, o.sparesTop = true) :
      ((Session.new c).after os).WellFormed ∧ ((Session.new c).after os).Topped blankTop :=
    ⟨(wellFormed_new c).after os, (Topped.new c).after (wellFormed_new c) ho⟩
  obtain ⟨hs, hst⟩ := hrun (c := c₁) h₁
  obtain ⟨ht, htt⟩ := hrun (c := c₂) h₂
  have hagain {s : Session} (hs : s.WellFormed) (hst : s.Topped blankTop) :
      ∃ f, Alike f (s.clear.render markup) ((s.render markup).clear.render markup) := by
    refine exists_alike_render hs hst (hs.render markup) (hst.render hs markup)
      (render_config hs markup) markup ?_
    rw [render_vars hs, declared_declared]
  have hnew := hagain (wellFormed_new c₁) (Topped.new c₁)
  rw [clear_new] at hnew
  obtain ⟨f, hf⟩ := exists_alike_render hs hst ht htt hconfig markup (by rw [hvars])
  refine ⟨⟨?_, f, hf⟩, hagain hs hst, hnew, exists_alike_init hs hst markup⟩
  rw [hf.controls, List.length_map]

/-- A page with a focused text area is forgotten, and the variable of its document is not. -/
theorem clear_render_alike_after_input :
    let s := (Session.new {}).after [
      .render "<state><bool name='v'/></state><page id='p'><input id='i'/></page>", .beginInput "i"]
    let t := (Session.new {}).after [.render "<state><bool name='v'/></state>"]
    s.focusedInput.isSome = true ∧ ∃ f, Alike f (s.clear.render "<switch bind='v'/>")
      (t.clear.render "<switch bind='v'/>") := by
  intro s t
  have hconfig : t.config = s.config := by decide +kernel
  have hvars : t.store.vars = s.store.vars := by decide +kernel
  have hfocused : s.focusedInput.isSome = true := by decide +kernel
  exact ⟨hfocused, (clear_render_alike (by decide) (by decide) hconfig hvars _).1.2⟩

end ScreenMarkup.Session
