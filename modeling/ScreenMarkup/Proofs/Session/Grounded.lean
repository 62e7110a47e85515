import ScreenMarkup.Proofs.Session.Clearing
import ScreenMarkup.Proofs.Session.Integrity
import ScreenMarkup.Proofs.Session.SiteRendering

/-!
# Sessions that name only what is there

While a document is put on a cleared session, no event is reported and nothing
has the focus. All handles that the session keeps name widgets of its screen,
and so do the references of the widgets to each other.
-/

set_option autoImplicit false

namespace ScreenMarkup

theorem Router.onAll_queue (r : Router) (h : Handle) (kinds : List EventKind) (l : Listener) :
    (r.onAll h kinds l).queue = r.queue := by
  unfold onAll
  induction kinds generalizing r with
  | nil => rfl
  | cons kind kinds ih =>
    rw [List.foldl_cons, ih, on]
    split <;> rfl

namespace Session

variable {s t : Session} {h parent view : Handle} {e : Element}

/-! ## Steps -/

/-- A step that keeps references intact, and neither reports an event nor moves the focus. -/
structure Links (s t : Session) : Prop where
  screen : s.screen.Links t.screen
  queue : t.router.queue = s.router.queue
  focus : t.focusedInput = s.focusedInput

theorem Links.refl (s : Session) : Links s s := ⟨Screen.Links.refl s.screen, rfl, rfl⟩

theorem Links.trans {u : Session} (h₁ : Links s t) (h₂ : Links t u) : Links s u :=
  ⟨h₁.screen.trans h₂.screen, h₂.queue.trans h₁.queue, h₂.focus.trans h₁.focus⟩

theorem Links.redraw (s : Session) {v : Screen} (hv : s.screen.Links v) :
    Links s { s with screen := v } := ⟨hv, rfl, rfl⟩

theorem Links.aside (hscreen : t.screen = s.screen) (hqueue : t.router.queue = s.router.queue)
    (hfocus : t.focusedInput = s.focusedInput) : Links s t :=
  ⟨hscreen ▸ Screen.Links.refl s.screen, hqueue, hfocus⟩

theorem register_links (s : Session) (c : Control) : Links s (s.register c).2 := by
  by_cases hid : c.id = ""
  · rw [register, if_pos hid]
    exact Links.refl s
  · obtain ⟨z, waiting, he⟩ := s.register_eq c hid
    rw [he]
    exact (Links.redraw s (Screen.steps_links.ite (Screen.steps_links.modify s.screen c.target
      (f := ({ · with hidden := true })) fun _ => rfl))).trans (Links.aside rfl rfl rfl)

theorem constructing_links : Constructing Screen.Links Links where
  steps := Screen.steps_links
  trans := Links.trans
  redraw := Links.redraw
  number _ _ := Links.aside rfl rfl rfl
  create {s t kind h parent} hc := by
    rw [create_eq] at hc
    cases hc
    exact Links.redraw s (Screen.links_create s.screen kind parent)
  discard {s t kind h parent v} hc hr _ := by
    rw [create_eq] at hc
    cases hc
    exact Links.redraw s (Screen.links_delete_new s.screen hr)
  keepZIndex s h z := by
    unfold keepZIndex
    split <;> exact Links.aside rfl rfl rfl
  register s c _ _ := register_links s c
  registerWith s {c h _ events listener} _ _ _ _ _ := by
    have hrecorded := register_links s c
    unfold registerWith
    split
    · next i t he =>
      rw [he] at hrecorded
      exact hrecorded.trans (Links.aside rfl (t.router.onAll_queue h events (listener i)) rfl)
    · next t he =>
      rw [he] at hrecorded
      exact hrecorded

theorem layingOut_links : LayingOut Links where
  refl := Links.refl
  trans := Links.trans
  readHead _ _ _ _ := Links.aside rfl rfl rfl
  addPage he := ⟨Screen.arranging_links.addPage he, rfl, rfl⟩
  addGroup he := ⟨Screen.arranging_links.addGroup he, rfl, rfl⟩
  addTile? he := ⟨Screen.arranging_links.addTile? he, rfl, rfl⟩
  finishGroup he := ⟨Screen.arranging_links.finishGroup he, rfl, rfl⟩
  setPageBackground s h page := by
    refine ⟨(layingOut_screen Screen.arranging_links).setPageBackground s h page, ?_, ?_⟩
    all_goals
      unfold setPageBackground
      extract_lets color
      split <;> rfl
  pushPage _ _ _ := Links.aside rfl rfl rfl
  listen s {view gi} _ :=
    Links.aside rfl (s.router.onAll_queue view [.valueChanged] (.tileView gi)) rfl

/-! ## The invariant -/

/-- Every handle that the session keeps names a widget. -/
structure Grounded (s : Session) : Prop where
  wellFormed : s.WellFormed
  anchored : s.Anchored
  waits : s.Waits
  linked : s.screen.Linked
  router : s.router.Sound
  queue : s.router.queue = []
  focus : s.focusedInput = none

theorem Grounded.grow (hs : s.Grounded) (hw : t.WellFormed) (hz : t.Waits) (hg : Grows s t)
    (hl : Links s t) : t.Grounded where
  wellFormed := hw
  anchored := hs.anchored.grow hg
  waits := hz
  linked := (hl.screen hs.linked).1
  router := hg.router.sound hs.router
  queue := hl.queue.trans hs.queue
  focus := hl.focus.trans hs.focus

namespace Grounded

/-- A cleared session has nothing on its screen. -/
theorem clear (hs : s.WellFormed) (ha : s.Anchored) (ht : s.Topped blankTop) :
    s.clear.Grounded where
  wellFormed := hs.clear
  anchored := ha.perform .clear
  waits _ _ := rfl
  linked := by
    have hsound : s.clear.screen.Sound := hs.clear.screen.toSound
    have htop {h : Handle} (hl : s.clear.screen.isLive h = true) : h = Handle.screen := by
      have hin := (hsound.live h).mpr hl
      rw [show s.clear.screen.shape = _ from hs.screen.clean_shape] at hin
      exact List.mem_singleton.mp hin
    refine ⟨hsound, fun h hl => ?_, fun h w hw => ?_⟩
    · rw [htop hl]
      exact Nat.one_ne_zero
    · rw [htop (Screen.isLive_iff.mpr ⟨w, hw⟩), (ht.clear hs).widget] at hw
      cases hw
      exact fun _ hk => nomatch hk
  router := ⟨List.nodup_nil, fun _ hq => nomatch hq⟩
  queue := rfl
  focus := rfl

theorem buildWidget (hs : s.Grounded) (hp : s.Holds parent) (e : Element) :
    (Session.buildWidget parent e s).Grounded :=
  have hf := buildWidget_fills e hs.wellFormed hs.waits hp
  hs.grow (hf.builds.wellFormed hs.wellFormed) (hf.waits hs.waits)
    (constructing_grows.buildWidget parent e s) (constructing_links.buildWidget parent e s)

theorem buildAll (hs : s.Grounded) (hp : s.Holds parent) (es : List Element) :
    (Session.buildAll parent es s).Grounded :=
  have hf := buildAll_fills es hs.wellFormed hs.waits hp
  hs.grow (hf.builds.wellFormed hs.wellFormed) (hf.waits hs.waits)
    (constructing_grows.buildAll parent es s) (constructing_links.buildAll parent es s)

theorem buildTabs (hs : s.Grounded) (hp : s.Holds view) (es : List Element) :
    (Session.buildTabs view es s).Grounded :=
  have hf := buildTabs_fills es hs.wellFormed hs.waits hp
  hs.grow (hf.builds.wellFormed hs.wellFormed) (hf.waits hs.waits)
    (constructing_grows.buildTabs view es s) (constructing_links.buildTabs view es s)

theorem createTabView (hs : s.Grounded) (hp : s.Holds parent)
    (hv : s.createTabView e parent = (view, t)) : t.Grounded ∧ t.Holds view := by
  have hlive : s.screen.isLive parent = true := by
    obtain ⟨k, hk, -⟩ := hp
    exact Screen.isLive_of_kind? hk
  have hd := createTabView_draft hs.wellFormed hp hv
  obtain ⟨-, hworks⟩ := createTabView_works hs.wellFormed hs.waits hlive hv
  exact ⟨hs.grow (hd.builds.wellFormed hs.wellFormed) (hworks.waits hs.waits)
    (constructing_grows.createTabView hv) (constructing_links.createTabView hv), hd.holds rfl⟩

theorem createTab (hs : s.Grounded) (hp : s.Holds view) (hv : s.createTab e view = (h, t)) :
    t.Grounded ∧ t.Holds h := by
  obtain ⟨C, hC, hd⟩ := createTab_draft hs.wellFormed hp hv
  obtain ⟨hf, -⟩ := createTab_fills hs.wellFormed hp hv
  exact ⟨hs.grow (hd.builds.wellFormed hs.wellFormed) (hf.waits hs.waits)
    (constructing_grows.createTab hv) (constructing_links.createTab hv), hd.holds (by rw [hC]; rfl)⟩

theorem layOut (hs : s.Grounded) (markup : String) : (s.layOut markup).1.Grounded := by
  obtain ⟨⟨head, store, sheet, hl⟩, -⟩ := layOut_hosts hs.wellFormed markup
  exact hs.grow hl.wellFormed (hs.waits.lay hl) (layingOut_grows.layOut s markup)
    (layingOut_links.layOut s markup)

end Grounded
end Session
end ScreenMarkup
