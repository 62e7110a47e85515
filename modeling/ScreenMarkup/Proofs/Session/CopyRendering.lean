import ScreenMarkup.Proofs.Document.Declarations
import ScreenMarkup.Proofs.Session.CopyBuilding
import ScreenMarkup.Proofs.Session.Rendering

/-!
# Rendering on copies

A document that is rendered on a session and on its copy gives a session and
its copy. No pass of the rendering asks for anything else.
-/

set_option autoImplicit false

namespace ScreenMarkup.Session

variable {ρ : Renaming} {s t : Session} {h : Handle}

def Content.rename (f : Handle → Handle) (c : Content) : Content := { c with parent := f c.parent }

/-- A group whose tiles are made gets its dots, its listener and its control. -/
def closeGroup (id : String) (gi : Nat) (tiles : Session × List Content) :
    Session × List Content :=
  let (nav, screen) := tiles.1.nav.finishGroup tiles.1.screen gi
  let s := { tiles.1 with nav := nav, screen := screen }
  match s.nav.groups[gi]? with
  | none => (s, tiles.2)
  | some g =>
    (({ s with router := s.router.on g.view .valueChanged (.tileView gi) }).pushPage id g.view,
      tiles.2)

theorem renderGroup_eq (s : Session) (group : Element) :
    s.renderGroup group =
      if group.attr "id" = "" then (s, [])
      else
        let (gi, nav, screen) := s.nav.addGroup s.screen (group.attr "id") (group.attr "default")
          (Orientation.ofKeyword (group.attr "orientation"))
          (Indicator.ofKeyword (group.attr "indicator")) s.config.screen
        closeGroup (group.attr "id") gi (collect (renderTile gi (group.attr "id"))
          (tilePages group s.config.maxPagesPerGroup) { s with nav := nav, screen := screen }) := by
  unfold renderGroup closeGroup
  rfl

namespace Copies

/-! ## Layout -/

theorem setPageBackground (hc : Copies ρ s t) (h : Handle) (page : Element) :
    Copies ρ (s.setPageBackground h page) (t.setPageBackground (ρ h) page) :=
  hc.ite (hc.mapScreen fun hc => hc.setBackground h _)

theorem pushPage (hc : Copies ρ s t) (id : String) (h : Handle) :
    Copies ρ (s.pushPage id h) (t.pushPage id (ρ h)) := by
  refine { hc with controls := ?_ }
  show t.controls ++ _ = (s.controls ++ _).map _
  rw [hc.controls, List.map_append]
  rfl

theorem navigate (hc : Copies ρ s t) {m m' : Navigation} {u v : Screen} (hm : m' = m.rename ρ)
    (hscreen : Screen.Copies ρ u v) :
    Copies ρ { s with nav := m, screen := u } { t with nav := m', screen := v } :=
  { hc with nav := hm, screen := hscreen }

/-- A pass gives copies, and content that corresponds. -/
def Places (ρ : Renaming) (a b : Session × List Content) : Prop :=
  Copies ρ a.1 b.1 ∧ b.2 = a.2.map (Content.rename ρ)

theorem Places.exists {a b : Session × List Content} (hp : Places ρ a b) :
    ∃ s t contents, a = (s, contents) ∧ b = (t, contents.map (Content.rename ρ)) ∧
      Copies ρ s t :=
  ⟨_, _, _, rfl, Prod.ext rfl hp.2, hp.1⟩

theorem collect (hc : Copies ρ s t) {step : Session → Element → Session × List Content}
    (hstep : ∀ {s t : Session} (e : Element), Copies ρ s t → Places ρ (step s e) (step t e))
    (es : List Element) :
    Places ρ (Session.collect step es s) (Session.collect step es t) := by
  induction es generalizing s t with
  | nil => exact ⟨hc, rfl⟩
  | cons e es ih =>
    obtain ⟨hc₁, he⟩ := hstep e hc
    obtain ⟨hc₂, hes⟩ := ih hc₁
    refine ⟨hc₂, ?_⟩
    show (step t e).2 ++ _ = ((step s e).2 ++ _).map _
    rw [he, hes, List.map_append]

theorem renderTile (hc : Copies ρ s t) (gi : Nat) (group : String) (page : Element) :
    Places ρ (Session.renderTile gi group s page) (Session.renderTile gi group t page) := by
  rcases hc.screen.addTile? s.nav gi (page.attr "id") s.config.screen with
    ⟨hs, ht⟩ | ⟨h, m, u, v, hs, ht, hscreen⟩
  · rw [← hc.nav, ← hc.config] at ht
    simp only [Session.renderTile, hs, ht]
    exact ⟨hc, rfl⟩
  · rw [← hc.nav, ← hc.config] at ht
    simp only [Session.renderTile, hs, ht]
    have hc₁ := hc.navigate (m := m) rfl hscreen
    exact ⟨(hc₁.setPageBackground h page).pushPage _ h, rfl⟩

theorem finishGroup (hc : Copies ρ s t) (gi : Nat) :
    ∃ m u m' v, s.nav.finishGroup s.screen gi = (m, u) ∧ t.nav.finishGroup t.screen gi = (m', v) ∧
      Copies ρ { s with nav := m, screen := u } { t with nav := m', screen := v } := by
  obtain ⟨m, u, v, hs, ht, hscreen⟩ := hc.screen.finishGroup s.nav gi
  rw [← hc.nav] at ht
  exact ⟨m, u, _, v, hs, ht, hc.navigate rfl hscreen⟩

theorem closeGroup (id : String) (gi : Nat) {a b : Session × List Content} (hp : Places ρ a b) :
    Places ρ (Session.closeGroup id gi a) (Session.closeGroup id gi b) := by
  obtain ⟨hc, hcontents⟩ := hp
  obtain ⟨m, u, m', v, hs, ht, hc₁⟩ := hc.finishGroup gi
  have hgroup : m'.groups[gi]? = m.groups[gi]?.map (PageGroup.rename ρ) := by
    rw [show m' = m.rename ρ from hc₁.nav, Navigation.groups_rename]
  simp only [Session.closeGroup, hs, ht, hgroup]
  cases m.groups[gi]? with
  | none => exact ⟨hc₁, hcontents⟩
  | some g =>
    have hrouter : b.1.router.on (ρ g.view) .valueChanged (.tileView gi) =
        (a.1.router.on g.view .valueChanged (.tileView gi)).rename ρ := by
      rw [hc.router, Router.on_rename]
    have hc₂ : Copies ρ
        { a.1 with
          nav := m, screen := u, router := a.1.router.on g.view .valueChanged (.tileView gi) }
        { b.1 with
          nav := m', screen := v, router := b.1.router.on (ρ g.view) .valueChanged (.tileView gi) } :=
      { hc₁ with router := hrouter }
    exact ⟨hc₂.pushPage id g.view, hcontents⟩

theorem renderGroup (hc : Copies ρ s t) (group : Element) :
    Places ρ (s.renderGroup group) (t.renderGroup group) := by
  obtain ⟨gi, m, u, v, hs, ht, hscreen⟩ := hc.screen.addGroup s.nav (group.attr "id")
    (group.attr "default") (Orientation.ofKeyword (group.attr "orientation"))
    (Indicator.ofKeyword (group.attr "indicator")) s.config.screen
  rw [← hc.nav, ← hc.config] at ht
  have hc₁ := hc.navigate (m := m) rfl hscreen
  have hlimit : t.config.maxPagesPerGroup = s.config.maxPagesPerGroup := by rw [hc.config]
  rw [renderGroup_eq, renderGroup_eq, hs, ht, hlimit]
  split
  · exact ⟨hc, rfl⟩
  · exact closeGroup (group.attr "id") gi (hc₁.collect
      (fun e hc => hc.renderTile gi (group.attr "id") e) (tilePages group s.config.maxPagesPerGroup))

theorem renderPage (hc : Copies ρ s t) (page : Element) :
    Places ρ (s.renderPage page) (t.renderPage page) := by
  obtain ⟨h, m, u, v, hs, ht, hscreen⟩ :=
    hc.screen.addPage s.nav (page.attr "id") s.config.screen
  rw [← hc.nav, ← hc.config] at ht
  have hcount : t.nav.pages.length = s.nav.pages.length := by
    rw [hc.nav]
    exact List.length_map ..
  have hlimit : t.config.maxPages = s.config.maxPages := by rw [hc.config]
  have hc₁ := hc.navigate (m := m) rfl hscreen
  simp only [Session.renderPage, hs, ht, hcount, hlimit]
  split
  · exact ⟨hc, rfl⟩
  · exact ⟨(hc₁.setPageBackground h page).pushPage _ h, rfl⟩

/-! ## The first page -/

theorem showPage (hc : Copies ρ s t) (path : String) :
    (∃ e, s.showPage path = (.error e, s) ∧ t.showPage path = (.error e, t)) ∨
      ∃ s' t', s.showPage path = (.ok (), s') ∧ t.showPage path = (.ok (), t') ∧
        Copies ρ s' t' := by
  have hdisplay := hc.screen.display s.nav path
  rw [← hc.nav] at hdisplay
  rcases hdisplay with ⟨e, hs, ht⟩ | ⟨m, u, v, hs, ht, hscreen⟩
  · simp only [Session.showPage, hs, ht]
    exact .inl ⟨e, rfl, rfl⟩
  · simp only [Session.showPage, hs, ht]
    exact .inr ⟨_, _, rfl, rfl, hc.navigate rfl hscreen⟩

theorem showFirst (hc : Copies ρ s t) : Copies ρ s.showFirst t.showFirst := by
  have hgroup : t.nav.groups.head?.map (·.id) = s.nav.groups.head?.map (·.id) := by
    rw [hc.nav, Navigation.rename, List.head?_map, Option.map_map]
    rfl
  have hpage : t.nav.pages.head?.map (·.id) = s.nav.pages.head?.map (·.id) := by
    rw [hc.nav, Navigation.rename, List.head?_map, Option.map_map]
    rfl
  unfold Session.showFirst
  rw [hgroup, hpage, hc.head]
  extract_lets first fallback first' fallback'
  have hfirst : first' = first := rfl
  have hfallback : Copies ρ fallback fallback' := by
    unfold fallback fallback'
    rw [hfirst]
    cases first with
    | none => exact hc
    | some id =>
      rcases hc.showPage id with ⟨e, hs, ht⟩ | ⟨s', t', hs, ht, hc'⟩
      · simp only [hs, ht]
        exact hc
      · simp only [hs, ht]
        exact hc'
  split
  · exact hfallback
  · rcases hc.showPage s.head.defaultPage with ⟨e, hs, ht⟩ | ⟨s', t', hs, ht, hc'⟩
    · simp only [hs, ht]
      exact hfallback
    · simp only [hs, ht]
      exact hc'

/-! ## Whole documents -/

theorem buildContents (hc : Copies ρ s t) (contents : List Content) :
    Copies ρ (contents.foldl (fun s c => Session.buildAll c.parent c.element.children s) s)
      ((contents.map (Content.rename ρ)).foldl
        (fun s c => Session.buildAll c.parent c.element.children s) t) := by
  induction contents generalizing s t with
  | nil => exact hc
  | cons c cs ih => exact ih (buildAll c.element.children hc)

/-- What is built is stacked, and no widget waits for its control any more. -/
theorem stacked (hc : Copies ρ s t) :
    Copies ρ { s with screen := s.screen.stack s.controls, pendingZ := [] }
      { t with screen := t.screen.stack t.controls, pendingZ := [] } := by
  refine { hc with screen := ?_, pendingZ := rfl }
  rw [hc.controls]
  exact hc.screen.stack s.controls

theorem readHead (hc : Copies ρ s t) (app : Element) :
    ∃ head store store' sheet,
      Head.read app s.store {} s.config.iconDir = (head, store, sheet) ∧
      Head.read app t.store {} t.config.iconDir = (head, store', sheet) ∧
      Copies ρ { s with head := head, store := store, sheet := sheet }
        { t with head := head, store := store', sheet := sheet } := by
  have hdir : Head.read app t.store {} t.config.iconDir =
      Head.read app t.store {} s.config.iconDir := by rw [hc.config]
  have hvars : Store.putAll (Head.declarations app) t.store.vars =
      Store.putAll (Head.declarations app) s.store.vars := by rw [hc.vars]
  exact ⟨_, _, _, _, Head.read_eq app s.store {} _, hdir.trans (Head.read_eq app t.store {} _),
    { hc with head := rfl, sheet := rfl, vars := hvars }⟩

theorem prepare (hc : Copies ρ s t) (markup : String) :
    Copies ρ (s.prepare markup) (t.prepare markup) := by
  unfold Session.prepare
  extract_lets doc app layout
  obtain ⟨head, store, store', sheet, hs, ht, hc₁⟩ := hc.readHead app
  obtain ⟨s₂, t₂, tiles, hs₂, ht₂, hc₂⟩ :=
    (hc₁.collect (fun e hc => hc.renderGroup e) layout.groups).exists
  obtain ⟨s₃, t₃, pages, hs₃, ht₃, hc₃⟩ :=
    (hc₂.collect (fun e hc => hc.renderPage e) layout.pages).exists
  simp only [hs, ht, hs₂, ht₂, hs₃, ht₃]
  have hbare : (t₃.nav.pages.isEmpty && t₃.nav.groups.isEmpty) =
      (s₃.nav.pages.isEmpty && s₃.nav.groups.isEmpty) := by
    rw [hc₃.nav]
    exact congrArg₂ (· && ·) List.isEmpty_map List.isEmpty_map
  generalize hcontents : (if (s₃.nav.pages.isEmpty && s₃.nav.groups.isEmpty) = true then
    [(⟨(app.find? "ui").getD app, Handle.screen⟩ : Content)] else tiles ++ pages) = contents
  have hcontents' : (if (t₃.nav.pages.isEmpty && t₃.nav.groups.isEmpty) = true then
      [(⟨(app.find? "ui").getD app, Handle.screen⟩ : Content)]
      else tiles.map (Content.rename ρ) ++ pages.map (Content.rename ρ)) =
        contents.map (Content.rename ρ) := by
    rw [hbare, ← hcontents]
    split
    · simp [Content.rename, ρ.screen]
    · rw [List.map_append]
  rw [hcontents']
  exact (hc₃.buildContents contents).stacked

theorem render (hc : Copies ρ s t) (markup : String) :
    Copies ρ (s.render markup) (t.render markup) :=
  (hc.prepare markup).showFirst

end Copies
end ScreenMarkup.Session
