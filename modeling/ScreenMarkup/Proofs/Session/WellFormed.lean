import ScreenMarkup.Proofs.Screen.Restyle
import ScreenMarkup.Session.Basic

/-!
# Well-formed sessions

The handles that a session keeps name live widgets of the right kinds, no
widget belongs to two controls, and keyboard listeners stand on keyboards.
Pages, groups, dots and keyboards are told apart from the widgets of a
document by their kinds alone.
-/

set_option autoImplicit false

namespace ScreenMarkup

/-- The kinds of widgets that belong to the navigation. -/
def WidgetKind.navigates : WidgetKind → Bool
  | .page | .tileView | .tile | .indicator | .dot | .keyboard => true
  | _ => false

namespace Control

def Owns (c : Control) (h : Handle) : Prop := c.obj = h ∨ c.outer = some h

/-- No widget belongs to both. -/
def Apart (c d : Control) : Prop := ∀ h, c.Owns h → ¬ d.Owns h

/-- Nothing of the control depends on a variable. -/
structure Constant (c : Control) : Prop where
  template : c.template = none
  classTemplate : c.classTemplate = none
  visible : c.visibleBind = none
  bgcolor : c.bgcolorBind = none
  color : c.colorBind = none
  bound : c.bind = none

/-- The widgets of the control are there and of a kind that fits. -/
structure Fits (s : Screen) (c : Control) : Prop where
  kind : ∀ h, c.Owns h → ∃ k, s.kind? h = some k ∧ (k.navigates = true ↔ c.kind = .page)
  label : c.template ≠ none → c.theme = none → s.kind? c.obj = some .label
  bound : c.bind ≠ none → c.template = none
  page : c.kind = .page → c.Constant

/-- The part of a control that never changes. -/
def wiring (c : Control) : Control := { c with zIndex := 0, canvas := none, lastUpdate := none }

theorem owns_obj (c : Control) : c.Owns c.obj := .inl rfl

theorem owns_target (c : Control) : c.Owns c.target := by
  unfold target
  cases ho : c.outer with
  | none => exact .inl rfl
  | some h => exact .inr ho

theorem Fits.live {s : Screen} {c : Control} (hf : c.Fits s) {h : Handle} (ho : c.Owns h) :
    s.isLive h = true := by
  obtain ⟨k, hk, -⟩ := hf.kind h ho
  exact Screen.isLive_of_kind? hk

theorem Fits.retain {s t : Screen} {c : Control} (hf : c.Fits s) (hr : s.Retains t) :
    c.Fits t where
  kind h ho := by
    obtain ⟨k, hk, hn⟩ := hf.kind h ho
    exact ⟨k, hr.kind h k hk, hn⟩
  label ht hn := hr.kind _ _ (hf.label ht hn)
  bound := hf.bound
  page := hf.page

theorem Fits.congr {s t : Screen} {c : Control} (hf : c.Fits s)
    (hw : ∀ h, c.Owns h → t.widget? h = s.widget? h) : c.Fits t where
  kind h ho := by
    rw [Screen.kind?_congr (hw h ho)]
    exact hf.kind h ho
  label ht hn := by
    rw [Screen.kind?_congr (hw _ c.owns_obj)]
    exact hf.label ht hn
  bound := hf.bound
  page := hf.page

theorem wiring_eq {c d : Control} (hw : d.wiring = c.wiring) :
    d = { c with zIndex := d.zIndex, canvas := d.canvas, lastUpdate := d.lastUpdate } := by
  cases c
  cases d
  simp_all [wiring]

theorem Fits.rewire {s : Screen} {c d : Control} (hf : c.Fits s) (hw : d.wiring = c.wiring) :
    d.Fits s := by
  rw [wiring_eq hw]
  exact ⟨hf.kind, hf.label, hf.bound, fun hp => ⟨(hf.page hp).1, (hf.page hp).2, (hf.page hp).3,
    (hf.page hp).4, (hf.page hp).5, (hf.page hp).6⟩⟩

end Control

namespace Navigation

/-- The handles of the navigation name live widgets of their kinds. -/
structure WellFormed (s : Screen) (n : Navigation) : Prop where
  page : ∀ p ∈ n.pages, s.kind? p.widget = some .page
  view : ∀ g ∈ n.groups, s.kind? g.view = some .tileView
  tile : ∀ g ∈ n.groups, ∀ p ∈ g.pages, s.kind? p.widget = some .tile
  dots : ∀ g ∈ n.groups, ∀ d, g.dots = some d → s.kind? d = some .indicator
  keyboard : ∀ k ∈ n.keyboards, s.kind? k.2 = some .keyboard
  pagesNodup : (n.pages.map (·.widget)).Nodup
  viewsNodup : (n.groups.map (·.view)).Nodup
  dotsNodup : (n.groups.filterMap (·.dots)).Nodup
  currentPage : ∀ i, n.currentPage = some i → i < n.pages.length
  currentGroup : ∀ i, n.currentGroup = some i → i < n.groups.length

theorem WellFormed.retain {s t : Screen} {n : Navigation} (hn : n.WellFormed s)
    (hr : s.Retains t) : n.WellFormed t :=
  { hn with
    page := fun p hp => hr.kind _ _ (hn.page p hp)
    view := fun g hg => hr.kind _ _ (hn.view g hg)
    tile := fun g hg p hp => hr.kind _ _ (hn.tile g hg p hp)
    dots := fun g hg d hd => hr.kind _ _ (hn.dots g hg d hd)
    keyboard := fun k hk => hr.kind _ _ (hn.keyboard k hk) }

theorem WellFormed.empty (s : Screen) : ({} : Navigation).WellFormed s := by
  constructor <;> simp

end Navigation

namespace Session

variable {s t : Session}

structure WellFormed (s : Session) : Prop where
  screen : s.screen.WellFormed
  fits : ∀ c ∈ s.controls, c.Fits s.screen
  apart : s.controls.Pairwise Control.Apart
  nav : s.nav.WellFormed s.screen
  keyboard : ∀ r ∈ s.router.subscriptions, ∀ l ∈ r.listeners, l.2 = .keyboard →
    s.screen.kind? r.widget = some .keyboard

theorem wiring_mem {cs ds : List Control} (hw : ds.map Control.wiring = cs.map Control.wiring)
    {d : Control} (hd : d ∈ ds) : ∃ c ∈ cs, d.wiring = c.wiring := by
  have hmem : d.wiring ∈ cs.map Control.wiring := hw ▸ List.mem_map_of_mem hd
  obtain ⟨c, hc, he⟩ := List.mem_map.mp hmem
  exact ⟨c, hc, he.symm⟩

theorem apart_rewire {cs ds : List Control}
    (hw : ds.map Control.wiring = cs.map Control.wiring) (hc : cs.Pairwise Control.Apart) :
    ds.Pairwise Control.Apart := by
  have hiff (cs : List Control) :
      (cs.map Control.wiring).Pairwise Control.Apart ↔ cs.Pairwise Control.Apart :=
    List.pairwise_map
  rw [← hiff, hw, hiff]
  exact hc

/-- What keeps all widgets and rewires nothing keeps a session well formed. -/
theorem WellFormed.retain (hs : s.WellFormed) (hr : s.screen.Retains t.screen)
    (hc : t.controls.map Control.wiring = s.controls.map Control.wiring) (hn : t.nav = s.nav)
    (hrt : t.router.subscriptions = s.router.subscriptions) : t.WellFormed where
  screen := hr.wellFormed
  fits d hd := by
    obtain ⟨c, hcs, hw⟩ := wiring_mem hc hd
    exact ((hs.fits c hcs).retain hr).rewire hw
  apart := apart_rewire hc hs.apart
  nav := hn ▸ hs.nav.retain hr
  keyboard r hrm l hl hk := hr.kind _ _ (hs.keyboard r (hrt ▸ hrm) l hl hk)

end Session
end ScreenMarkup
