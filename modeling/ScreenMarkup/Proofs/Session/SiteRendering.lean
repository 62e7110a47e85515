import ScreenMarkup.Proofs.Screen.Stacking
import ScreenMarkup.Proofs.Session.SiteBuilding

/-!
# Rendering sites

A rendering fills the sites of its document. To stack them and to show a page
takes no site away, and leaves those as they are that have no control.
-/

set_option autoImplicit false

namespace ScreenMarkup

variable {s t : Session} {q : Site}

/-- To stack widgets and to show a page is no matter of an element without a control. -/
theorem Site.Bare.rendered (hq : q.Bare s) (hs : s.WellFormed) {m : Navigation} {v : Screen}
    {waiting : List (Handle × Int)} (hv : (s.screen.stack s.controls).Steers v) :
    q.Bare { s with screen := v, nav := m, pendingZ := waiting } where
  unnamed := hq.unnamed
  unowned := hq.unowned
  visible hb := by
    obtain ⟨hk, w, hw, hn, hh⟩ := hq.visible hb
    obtain ⟨x, hx, hsame, hkeep⟩ :=
      hv.exists_widget (((hs.screen.extends_stack s.controls).2 q.widget).trans hw)
    have hkind : x.kind = w.kind := congrArg WidgetContent.kind hsame
    exact ⟨hk, x, hx, hkind ▸ hn, (hkeep hn).trans hh⟩

namespace Session

/-- A document is laid out with nothing else waiting for a control than before. -/
theorem Waits.lay (hz : s.Waits) {head : Head} {store : Store} {sheet : Stylesheet}
    (hl : Lays { s with head := head, store := store, sheet := sheet } t) : t.Waits := by
  intro h hh
  rw [hl.rest]
  refine hz h (Bool.eq_false_iff.mpr fun hlive => ?_)
  rw [hl.screen.retains.isLive hlive] at hh
  cases hh

theorem buildContents_fills {contents : List Content} (hs : s.WellFormed) (hz : s.Waits)
    (hc : ∀ c ∈ contents, s.Holds c.parent) :
    Fills (fun k => ∃ c ∈ contents, c.parent = k) (fun _ => False) (sitesAmong contents s) s
      (buildContents contents s) := by
  induction contents generalizing s with
  | nil => exact Fills.refl hs
  | cons c cs ih =>
    have hfirst := buildAll_fills c.element.children hs hz (hc c List.mem_cons_self)
    have hrest := ih (hfirst.builds.wellFormed hs) (hfirst.waits hz) fun d hd =>
      hfirst.builds.holds (hc d (List.mem_cons_of_mem c hd))
    refine (hfirst.mono fun k _ hk => ⟨c, List.mem_cons_self, hk.symm⟩).trans hrest
      (fun k _ hk => ?_) fun _ hk => hk
    obtain ⟨d, hd, he⟩ := hk
    exact ⟨d, List.mem_cons_of_mem c hd, he⟩

theorem sites_fill (hs : s.WellFormed) (hz : s.Waits) (markup : String) :
    Fills (fun k => ∃ c ∈ (s.layOut markup).2, c.parent = k) (fun _ => False) (s.sites markup)
      (s.layOut markup).1 (buildContents (s.layOut markup).2 (s.layOut markup).1) := by
  obtain ⟨⟨head, store, sheet, hl⟩, hhosts⟩ := layOut_hosts hs markup
  exact buildContents_fills hl.wellFormed (hz.lay hl) fun c hc => (hhosts c hc).holds

/-- What is built is stacked, and then perhaps a page is shown. -/
theorem render_built (hs : s.WellFormed) (markup : String) :
    let u := buildContents (s.layOut markup).2 (s.layOut markup).1
    u.WellFormed ∧ ∃ m v, (u.screen.stack u.controls).Steers v ∧
      s.render markup = { u with screen := v, nav := m, pendingZ := [] } := by
  intro u
  obtain ⟨⟨head, store, sheet, hl⟩, hhosts⟩ := layOut_hosts hs markup
  have hu : u.WellFormed :=
    (contents_builds hl.wellFormed fun c hc => (hhosts c hc).holds).wellFormed hl.wellFormed
  refine ⟨hu, ?_⟩
  rw [render_eq]
  rcases showFirst_spec (hs.prepare markup) with ⟨he, -⟩ | ⟨-, m, v, hd, he⟩
  · exact ⟨u.nav, _, Screen.Steers.refl _, by rw [he, prepare_eq]⟩
  · exact ⟨m, v, hd.steers, by rw [he, prepare_eq]⟩

/-- In a rendered document every site has a control, or is an element without an id. -/
theorem render_serves (hs : s.WellFormed) (hz : s.Waits) (markup : String) :
    ∀ q ∈ s.sites markup,
      (∃ c ∈ (s.render markup).controls, c.Marks q (s.render markup)) ∨
        q.Bare (s.render markup) := by
  obtain ⟨hu, m, v, hv, he⟩ := render_built hs markup
  have hf := sites_fill hs hz markup
  intro q hq
  rw [he]
  rcases hf.records.served q hq with ⟨c, hc, hm⟩ | hb
  · exact .inl ⟨c, hc, hm.congr hf.builds.sheet.symm hf.builds.store.symm⟩
  · exact .inr (hb.rendered hu hv)

/-- The listing is complete. What stands in a widget was laid out before, or it is the widget of an
element that is built in this one, or it belongs to the widget of an element, as the label of a
button does. -/
theorem render_covered (hs : s.WellFormed) (hz : s.Waits) (markup : String) (h : Handle) :
    ∀ k ∈ (s.render markup).screen.children h, (s.layOut markup).1.screen.isLive k = true ∨
      (∃ q ∈ s.sites markup, q.parent = h ∧ q.widget = k) ∨ ∃ q ∈ s.sites markup, q.widget = h := by
  obtain ⟨hu, m, v, hv, he⟩ := render_built hs markup
  have hf := sites_fill hs hz markup
  intro k hk
  have hbuilt : k ∈ (buildContents (s.layOut markup).2 (s.layOut markup).1).screen.children h := by
    rw [he, hv.children] at hk
    exact (hu.screen.toSound.children_stack_perm _ h).mem_iff.mp hk
  rcases hf.plants.covers h k hbuilt with hl | hlisted | hinside | hopen
  · exact .inl hl
  · have hbelow : k ∈ Screen.below ((s.sites markup).map Site.planting) h := by
      rw [← hf.plants.listed h]
      exact List.mem_filter.mpr ⟨hbuilt, decide_eq_true hlisted⟩
    obtain ⟨q, hq, he⟩ := List.mem_map.mp (Screen.mem_below.mp hbelow)
    exact .inr (.inl ⟨q, hq, congrArg Prod.fst he, congrArg Prod.snd he⟩)
  · rw [map_planting] at hinside
    exact .inr (.inr (List.mem_map.mp hinside))
  · exact hopen.elim

end Session
end ScreenMarkup
