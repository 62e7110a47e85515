import ScreenMarkup.Proofs.Navigation.Anchored
import ScreenMarkup.Proofs.Navigation.Arranging
import ScreenMarkup.Proofs.Navigation.Display
import ScreenMarkup.Proofs.Navigation.Paint
import ScreenMarkup.Proofs.Screen.Carry
import ScreenMarkup.Proofs.Session.Pages
import ScreenMarkup.Proofs.Session.PlacementCover

/-!
# Rendering what is placed

A document is laid out on pages and tiles, then its content is built, and at
last it is stacked and a page is shown. Pages, views, tiles, rows and dots are
no content: making and showing them adds no widget that rules and inline
attributes style. At the end every placement stands, and nothing else of a
styled kind is new.
-/

set_option autoImplicit false

namespace ScreenMarkup

theorem WidgetKind.isStyled_of_navigates {kind : WidgetKind} (hk : kind.navigates = true) :
    kind.isStyled = false := by
  cases kind <;> first | rfl | cases hk

theorem Screen.arranging_carries : Screen.Arranging Screen.Carries where
  refl := Carries.refl
  trans := Carries.trans
  modify _ _ _ hf := carries_modify fun w => congrArg Widget.Ties.kind (hf w)
  create s _ parent hk := carries_create (WidgetKind.isStyled_of_navigates hk) s parent
  raise := carries_raise
  setActiveTile {s t u view parent tile} hc hu := by
    have hcreate : Carries s (s.create .tile parent).2 := carries_create rfl s parent
    rw [hc] at hcreate
    exact (hcreate.trans hu).trans
      (carries_modify (f := ({ · with activeTile := some tile })) fun _ => rfl)

namespace Navigation

open Screen (Carries)

variable {n m : Navigation} {s t : Screen}

theorem display_carries (hs : s.WellFormed) (hn : n.WellFormed s) {path : String}
    (hd : n.display s path = .ok (m, t)) : Carries s t :=
  Screen.carries_of_kind (display_moves hd).screen
    ((display_spec hs hn hd).steers.kind? fun _ _ => Widget.Steers.sameKind)

end Navigation
end ScreenMarkup

namespace ScreenMarkup.Session

open Placed (Stands Covers)

variable {s t u : Session} {h : Handle} {p : Placed}

/-! ## Where content goes -/

theorem setPageBackground_kind? (s : Session) (h : Handle) (page : Element) (k : Handle) :
    (s.setPageBackground h page).screen.kind? k = s.screen.kind? k := by
  unfold setPageBackground
  extract_lets color
  split
  · rfl
  · exact (Screen.setBackground_restyles s.screen h _).kind? k

theorem renderPage_hosts (hs : s.WellFormed) (page : Element) :
    ∀ c ∈ (s.renderPage page).2, (s.renderPage page).1.Hosts c.parent := by
  unfold renderPage
  extract_lets id
  split
  · exact fun c hc => nomatch hc
  · split
    next h m v he =>
    extract_lets s₁
    obtain ⟨hadd, -, -⟩ := Navigation.addPage_spec hs.screen hs.nav he
    intro c hc
    rw [List.mem_singleton.mp hc]
    exact ⟨.page, (setPageBackground_kind? _ h page h).trans hadd.kind?, rfl, by decide⟩

theorem renderTile_hosts (hs : s.WellFormed) (gi : Nat) (group : String) (page : Element) :
    ∀ c ∈ (renderTile gi group s page).2, (renderTile gi group s page).1.Hosts c.parent := by
  unfold renderTile
  extract_lets id
  split
  · exact fun c hc => nomatch hc
  · next h m v he =>
    extract_lets s₁
    obtain ⟨hadd, -, -⟩ := Navigation.addTile?_spec hs.screen hs.nav he
    intro c hc
    rw [List.mem_singleton.mp hc]
    exact ⟨.tile, (setPageBackground_kind? _ h page h).trans hadd.kind?, rfl, by decide⟩

theorem collect_hosts {f : Session → Element → Session × List Content}
    (hstep : ∀ s e, s.WellFormed → Places s (f s e) ∧
      ∀ c ∈ (f s e).2, (f s e).1.Hosts c.parent)
    (es : List Element) (hs : s.WellFormed) :
    ∀ c ∈ (collect f es s).2, (collect f es s).1.Hosts c.parent := by
  induction es generalizing s with
  | nil => exact fun c hc => nomatch hc
  | cons e es ih =>
    obtain ⟨⟨hl, -⟩, hc⟩ := hstep s e hs
    obtain ⟨⟨hrest, -⟩, -⟩ := collect_places (P := fun _ _ => True) (fun _ => trivial)
      (fun _ _ _ _ _ => trivial) (fun s e hs => ⟨(hstep s e hs).1, trivial⟩) es hl.wellFormed
    intro c hm
    rcases List.mem_append.mp hm with hm | hm
    · exact (hc c hm).retain hrest.screen.retains
    · exact ih hl.wellFormed c hm

theorem renderGroup_hosts (hs : s.WellFormed) (group : Element) :
    ∀ c ∈ (s.renderGroup group).2, (s.renderGroup group).1.Hosts c.parent := by
  unfold renderGroup
  extract_lets id
  split
  · exact fun c hc => nomatch hc
  · split
    next gi m v he =>
    extract_lets s₁
    split
    next s₂ contents hc =>
    split
    next m' v' hf =>
    extract_lets s₃
    obtain ⟨g, hadd, -, -, -, hm⟩ := Navigation.addGroup_spec hs.screen hs.nav he
    have hs₁ : s₁.WellFormed := hs.grow hadd.preserves hm
    have htiles := collect_hosts (f := renderTile gi id)
      (fun s e hs => ⟨(renderTile_places hs gi id e).1, renderTile_hosts hs gi id e⟩)
      (tilePages group s₁.config.maxPagesPerGroup) hs₁
    obtain ⟨⟨hl, -⟩, -⟩ := renderTiles_places hs₁ gi id
      (tilePages group s₁.config.maxPagesPerGroup)
    rw [hc] at htiles hl
    obtain ⟨hfinish, -⟩ := finishGroup_lays hl.wellFormed hf
    have hlater : ∀ c ∈ contents, s₃.Hosts c.parent :=
      fun c hc => (htiles c hc).retain hfinish.screen.retains
    split
    · exact hlater
    · exact hlater

/-- What a document is built on are pages, tiles or the screen. -/
theorem layOut_hosts (hs : s.WellFormed) (markup : String) :
    (∃ head store sheet,
      Lays { s with head := head, store := store, sheet := sheet } (s.layOut markup).1) ∧
      ∀ c ∈ (s.layOut markup).2, (s.layOut markup).1.Hosts c.parent := by
  unfold layOut
  extract_lets doc app layout
  split
  next head store sheet hr =>
  extract_lets s₀
  have hs₀ : s₀.WellFormed := hs.readHead head store sheet
  split
  next s₁ tiles hg =>
  split
  next s₂ pages hp =>
  have hgroup (s : Session) (e : Element) (hs : s.WellFormed) :=
    And.intro (renderGroup_places hs e) (renderGroup_hosts hs e)
  have hpage (s : Session) (e : Element) (hs : s.WellFormed) :=
    And.intro (renderPage_places hs e) (renderPage_hosts hs e)
  have hkeep {step : Session → Element → Session × List Content} (es : List Element)
      {s : Session} (hs : s.WellFormed) (hstep : ∀ s e, s.WellFormed → Places s (step s e) ∧
        ∀ c ∈ (step s e).2, (step s e).1.Hosts c.parent) : Places s (collect step es s) :=
    (collect_places (P := fun _ _ => True) (fun _ => trivial) (fun _ _ _ _ _ => trivial)
      (fun s e hs => ⟨(hstep s e hs).1, trivial⟩) es hs).1
  have hgroups := hkeep layout.groups hs₀ hgroup
  have htiles := collect_hosts hgroup layout.groups hs₀
  rw [hg] at hgroups htiles
  have hpages := hkeep layout.pages hgroups.1.wellFormed hpage
  have hcontents := collect_hosts hpage layout.pages hgroups.1.wellFormed
  rw [hp] at hpages hcontents
  refine ⟨⟨head, store, sheet, hgroups.1.trans hpages.1⟩, fun c hc => ?_⟩
  dsimp only at hc
  split at hc
  · rw [List.mem_singleton.mp hc]
    exact ⟨.screen, hpages.1.wellFormed.screen.top, rfl, by decide⟩
  · rcases List.mem_append.mp hc with hc | hc
    · exact (htiles c hc).retain hpages.1.screen.retains
    · exact hcontents c hc

/-! ## To the end of a rendering -/

theorem buildContents_stands {contents : List Content} (hs : s.WellFormed)
    (hc : ∀ c ∈ contents, s.Hosts c.parent) :
    ∀ p ∈ placedAmong contents s, p.kind.isStyled = true →
      p.Stands (buildContents contents s) := by
  induction contents generalizing s with
  | nil => exact fun p hp => nomatch hp
  | cons c cs ih =>
    have hhost := hc c List.mem_cons_self
    have hb := buildAll_builds c.element.children hs hhost.holds
    have hs' := hb.wellFormed hs
    have hcs : ∀ d ∈ cs, (buildAll c.parent c.element.children s).Hosts d.parent :=
      fun d hd => hb.hosts (hc d (List.mem_cons_of_mem c hd))
    intro p hp hk
    rcases List.mem_append.mp hp with hp | hp
    · exact (buildAll_stands c.element.children hs hhost p hp hk).extend hs'.screen.toSound
        (contents_builds hs' fun d hd => (hcs d hd).holds)
        (Grows.foldl (fun s c => constructing_grows.buildAll c.parent c.element.children s) cs _)
    · exact ih hs' hcs p hp hk

theorem buildContents_covers {contents : List Content} (hs : s.WellFormed)
    (hc : ∀ c ∈ contents, s.Hosts c.parent) :
    Covers (placedAmong contents s) s.screen (buildContents contents s).screen := by
  induction contents generalizing s with
  | nil => exact Covers.none fun _ _ hk _ => hk
  | cons c cs ih =>
    have hhost := hc c List.mem_cons_self
    have hb := buildAll_builds c.element.children hs hhost.holds
    exact (buildAll_covers c.element.children hs hhost).trans
      (ih (hb.wellFormed hs) fun d hd => hb.hosts (hc d (List.mem_cons_of_mem c hd)))

/-- Stacking moves widgets among their siblings. -/
theorem stack_settles (hs : s.WellFormed) :
    Settles s { s with screen := s.screen.stack s.controls, pendingZ := [] } := by
  obtain ⟨-, hwidget⟩ := hs.screen.extends_stack s.controls
  have hcarries : s.screen.Carries (s.screen.stack s.controls) :=
    Screen.carries_of_kind (Screen.later_stack s.screen s.controls) fun h => by
      rw [Screen.kind?, hwidget, Screen.kind?]
  refine ⟨⟨hcarries, fun h => ?_⟩, rfl, rfl⟩
  rw [Screen.style, Screen.style, hwidget]

theorem showFirst_carries (hs : s.WellFormed) : s.screen.Carries s.showFirst.screen := by
  rcases showFirst_display s with he | ⟨path, m, v, hd, he⟩
  · rw [he]
    exact Screen.Carries.refl _
  · rw [he]
    exact Navigation.display_carries hs.screen hs.nav hd

/-- A page that is shown first paints nothing that the document placed. -/
theorem showFirst_stands (hp : p.Stands s) (hs : s.WellFormed) : p.Stands s.showFirst := by
  rcases showFirst_display s with he | ⟨path, m, v, hd, he⟩
  · rw [he]
    exact hp
  · rw [he]
    have hstyle {k q : Handle} {kind : WidgetKind} (hq : s.screen.parent? k = some q)
        (hk : s.screen.kind? q = some kind) (hn : kind ≠ .indicator) :
        v.style k = s.screen.style k := by
      refine Navigation.style_display (hs.nav.undotted hs.screen.toSound hq ?_) hd
      rw [hk]
      exact fun he => hn (Option.some.inj he)
    obtain ⟨q, kind, hq, hk, hn⟩ := hp.made.around
    have houter := hstyle hq hk hn
    have hinner : v.style p.inner = s.screen.style p.inner := by
      rcases hp.made.inner with he | ⟨-, -, -, hparent⟩
      · rw [he, houter]
      · refine hstyle hparent hp.made.outer ?_
        cases p.kind <;> decide
    have hcarries := Navigation.display_carries hs.screen hs.nav hd
    exact
      { made := hp.made.carry hs.screen.toSound hcarries.upholds
        painted := hp.painted.congr (congrArg Style.paint houter) (congrArg Style.paint hinner)
        served := hp.served }

theorem render_stands (hs : s.WellFormed) (markup : String) :
    ∀ p ∈ s.placed markup, p.kind.isStyled = true → p.Stands (s.render markup) := by
  obtain ⟨⟨head, store, sheet, hlays⟩, hhosts⟩ := layOut_hosts hs markup
  have hlaid := hlays.wellFormed
  intro p hp hk
  have hbuilt := buildContents_stands hlaid hhosts p hp hk
  have hwf := (contents_builds hlaid fun c hc => (hhosts c hc).holds).wellFormed hlaid
  rw [render_eq]
  refine showFirst_stands ?_ (hs.prepare markup)
  rw [prepare_eq]
  exact hbuilt.settle hwf.screen.toSound (stack_settles hwf)

/-- Every widget of a styled kind that a rendering makes belongs to an element that is listed. -/
theorem render_covers (hs : s.WellFormed) (markup : String) :
    Covers (s.placed markup) s.screen (s.render markup).screen := by
  obtain ⟨⟨head, store, sheet, hlays⟩, hhosts⟩ := layOut_hosts hs markup
  have hlaid := hlays.wellFormed
  have hlaidOut := (layingOut_screen Screen.arranging_carries).layOut s markup
  have hbefore := Covers.none (hlaidOut.addsNone hs.screen.toSound)
  have hcontents := buildContents_covers hlaid hhosts
  have hwf := (contents_builds hlaid fun c hc => (hhosts c hc).holds).wellFormed hlaid
  have hprepared : Covers (s.placed markup) s.screen (s.prepare markup).screen := by
    rw [prepare_eq]
    exact (hbefore.trans hcontents).more
      ((stack_settles hwf).screen.carries.addsNone hwf.screen.toSound)
  rw [render_eq]
  exact hprepared.more
    ((showFirst_carries (hs.prepare markup)).addsNone (hs.prepare markup).screen.toSound)

end ScreenMarkup.Session
