import ScreenMarkup.Proofs.Screen.Skipping
import ScreenMarkup.Proofs.Session.Grounded

/-!
# Canvases that cannot be made

A canvas is refused when its size is not positive or its pixels take too many
bytes. Its widget is there by then, placed and sized, and goes again. What is
left is a copy of the session before, if the canvas has an id of its own: one
that was made for it would be used up.
-/

set_option autoImplicit false

namespace ScreenMarkup.Session

variable {ρ τ : Renaming} {s t u : Session} {e : Element} {parent : Handle}

/-! ## Copies on another screen -/

theorem Copies.trans (h₁ : Copies ρ s t) (h₂ : Copies τ t u) : Copies (ρ.comp τ) s u where
  screen := h₁.screen.trans h₂.screen
  config := h₂.config.trans h₁.config
  vars := h₂.vars.trans h₁.vars
  sheet := h₂.sheet.trans h₁.sheet
  controls := by
    rw [h₂.controls, h₁.controls, List.map_map]
    exact List.map_congr_left fun c _ => Control.rename_rename ρ τ c
  router := by
    rw [h₂.router, h₁.router]
    exact Router.rename_rename ρ τ s.router
  nav := by
    rw [h₂.nav, h₁.nav]
    exact Navigation.rename_rename ρ τ s.nav
  head := h₂.head.trans h₁.head
  pendingZ := by
    rw [h₂.pendingZ, h₁.pendingZ, List.map_map, Prod.map_comp_map]
    rfl
  autoId := h₂.autoId.trans h₁.autoId
  focusedInput := by
    rw [h₂.focusedInput, h₁.focusedInput, Option.map_map]
    rfl

/-- No widget that waits for its control is gone. -/
theorem Waits.live (hz : s.Waits) {z : Handle × Int} (hin : z ∈ s.pendingZ) :
    s.screen.isLive z.1 = true := by
  by_contra hdead
  have hnone := List.lookup_eq_none_iff.mp (hz z.1 (Bool.eq_false_iff.mpr hdead)) z hin
  simp at hnone

theorem Grounded.listener_live (hs : s.Grounded) {q : Subscription}
    (hq : q ∈ s.router.subscriptions) : s.screen.isLive q.widget = true := by
  obtain ⟨l, hl⟩ := List.exists_mem_of_ne_nil q.listeners (hs.router.nonempty q hq)
  exact hs.anchored.live hs.wellFormed (hs.anchored.listener q hq l hl)

/-- What the session keeps beside its screen does not notice a renaming that leaves all widgets
their handles. -/
theorem Grounded.copies_redraw (hs : s.Grounded)
    (hfixed : ∀ h, s.screen.isLive h = true → ρ h = h) {v : Screen}
    (hv : Screen.Copies ρ s.screen v) : Copies ρ s { s with screen := v } := by
  have hintact := hs.anchored.intact hs.wellFormed
  have hall {α : Type} {f : α → α} {as : List α} (hf : ∀ a ∈ as, f a = a) : as = as.map f :=
    ((List.map_congr_left (g := id) hf).trans (List.map_id as)).symm
  refine
    { screen := hv
      config := rfl
      vars := rfl
      sheet := rfl
      controls := hall fun c hc => ?_
      router := ?_
      nav := ?_
      head := rfl
      pendingZ := hall fun z hz => Prod.ext (hfixed z.1 (hs.waits.live hz)) rfl
      autoId := rfl
      focusedInput := by rw [show s.focusedInput = none from hs.focus]; rfl }
  · have hobj : ρ c.obj = c.obj := hfixed _ (hintact.control c hc _ (.inl rfl))
    have houter : c.outer.map ρ = c.outer :=
      Handle.map_of_fixed fun k hk => hfixed k (hintact.control c hc k (.inr hk))
    rw [Control.rename, hobj, houter]
  · have hlisteners : s.router.subscriptions = s.router.subscriptions.map (Subscription.rename ρ) :=
      hall fun q hq => congrArg (Subscription.mk · q.listeners) (hfixed _ (hs.listener_live hq))
    show s.router = _
    rw [Router.rename, ← hlisteners, hs.queue, List.map_nil, ← hs.queue]
  · have hpages : s.nav.pages = s.nav.pages.map (Page.rename ρ) :=
      hall fun p hp => congrArg (Page.mk p.id) (hfixed _ (hintact.page p hp))
    have hgroups : s.nav.groups = s.nav.groups.map (PageGroup.rename ρ) := hall fun g hg => by
      have hview : ρ g.view = g.view := hfixed _ (hintact.view g hg)
      have htiles : g.pages = g.pages.map (Page.rename ρ) :=
        hall fun p hp => congrArg (Page.mk p.id) (hfixed _ (hintact.tile g hg p hp).1)
      have hdots : g.dots.map ρ = g.dots :=
        Handle.map_of_fixed fun k hk => hfixed k (hintact.dots g hg k hk)
      rw [PageGroup.rename, hview, ← htiles, hdots]
    have hkeyboards : s.nav.keyboards = s.nav.keyboards.map (Prod.map ρ ρ) := hall fun k hk => by
      obtain ⟨hl, hpage, -⟩ := hintact.keyboard k hk
      have hpl := hs.anchored.nav.live_of_isPage hs.anchored.screen hpage
      exact Prod.ext (hfixed _ hpl) (hfixed _ hl)
    show s.nav = _
    rw [Navigation.rename, ← hpages, ← hgroups, ← hkeyboards]

theorem Grounded.copies_self (hs : s.Grounded) : Copies .identity s s :=
  hs.copies_redraw (fun _ _ => rfl) hs.linked.copies_self

/-! ## Refusal -/

/-- The element is a canvas with an id of its own that cannot be made. -/
structure Refuses (s : Session) (e : Element) : Prop where
  canvas : e.tag = "canvas"
  named : e.attr "id" ≠ ""
  failed : ∃ failure, Canvas.make (s.across e "w" Canvas.defaultSide)
    (s.down e "h" Canvas.defaultSide)
    (if e.attr "bgcolor" = "" then canvasBackground else Color.ofAttribute (e.attr "bgcolor"))
    s.config.maxCanvasBytes = .error failure

theorem Refuses.congr (he : s.Refuses e) (hconfig : t.config = s.config) : t.Refuses e where
  canvas := he.canvas
  named := he.named
  failed := by
    simp only [Session.across, Session.across?, Session.down, Session.down?, hconfig]
    exact he.failed

theorem buildWidget_canvas (he : e.tag = "canvas") (parent : Handle) (s : Session) :
    buildWidget parent e s = s.buildCanvas e parent := by
  obtain ⟨tag, attrs, text, children, inner⟩ := e
  cases he
  rw [buildWidget]
  rfl

/-- The whole builder has made a widget, changed it and deleted it again. -/
theorem Refuses.buildCanvas (he : s.Refuses e) (parent : Handle) :
    ∃ v, Screen.Restyles (· = (s.screen.create .canvas parent).1)
        (s.screen.create .canvas parent).2 v ∧
      (∀ i, v.upcoming i = (s.screen.create .canvas parent).2.upcoming i) ∧
      s.buildCanvas e parent =
        { s with screen := v.delete (s.screen.create .canvas parent).1 } := by
  obtain ⟨failure, hfailure⟩ := he.failed
  have hid : (WidgetAttrs.ofElement e).id ≠ "" := he.named
  have hnamed : s.withId (WidgetAttrs.ofElement e) .canvas true =
      (WidgetAttrs.ofElement e, s) := by
    rw [withId, if_neg (by simp [hid])]
  let h := (s.screen.create .canvas parent).1
  let made := (s.screen.create .canvas parent).2
  let placed := made.setPos h (s.across e "x" 0) (s.down e "y" 0)
  let sized := placed.setSize h (s.across e "w" Canvas.defaultSide)
    (s.down e "h" Canvas.defaultSide)
  refine ⟨sized, (Screen.setPos_restyles made h _ _).trans (Screen.setSize_restyles placed h _ _),
    fun i => (Screen.upcoming_modify placed h _ i).trans (Screen.upcoming_modify made h _ i), ?_⟩
  unfold Session.buildCanvas
  rw [hnamed]
  dsimp only [mapScreen, create_eq]
  rw [hfailure]

/-- A canvas that is refused leaves no trace but its handle, which is skipped. -/
theorem Grounded.copies_refused (hs : s.Grounded) (he : s.Refuses e) (parent : Handle) :
    Copies hs.linked.sound.skipping s (Session.buildWidget parent e s) := by
  obtain ⟨v, hv, hupcoming, hbuilt⟩ := he.buildCanvas parent
  rw [buildWidget_canvas he.canvas, hbuilt]
  exact hs.copies_redraw (fun _ hl => hs.linked.sound.skipping_live hl)
    (hs.linked.copies_delete_new hv hupcoming)

end ScreenMarkup.Session
