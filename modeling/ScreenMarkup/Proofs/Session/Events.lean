import ScreenMarkup.Proofs.Session.Refreshing
import ScreenMarkup.Session.Dispatch

/-!
# Events and the pages

No handler of an event hides a page or shows one, except by the navigation.
-/

set_option autoImplicit false

namespace ScreenMarkup

open Navigation (Displayed SameTargets)

/-- The kinds of widgets that showing a page hides or shows. -/
def WidgetKind.isPaged : WidgetKind → Bool
  | .page | .tileView | .indicator => true
  | _ => false

theorem WidgetKind.navigates_of_isPaged {k : WidgetKind} (hk : k.isPaged = true) :
    k.navigates = true := by
  cases k <;> first | rfl | cases hk

namespace Screen

variable {s t u : Screen} {h k : Handle} {H : Handle → Prop}

/-- Every widget stays, and what belongs to the pages stays hidden or shown. -/
structure Spares (s t : Screen) : Prop where
  retains : s.Retains t
  hidden : ∀ h kind, s.kind? h = some kind → kind.isPaged = true → t.isHidden h = s.isHidden h

theorem Spares.refl (hs : s.WellFormed) : Spares s s := ⟨Retains.refl hs, fun _ _ _ _ => rfl⟩

theorem Spares.trans (h₁ : Spares s t) (h₂ : Spares t u) : Spares s u := by
  refine ⟨h₁.retains.trans h₂.retains, fun h kind hk hp => ?_⟩
  exact (h₂.hidden h kind (h₁.retains.kind h kind hk) hp).trans (h₁.hidden h kind hk hp)

theorem Preserves.spares (hp : Preserves s t) : Spares s t :=
  ⟨hp.retains, fun _ _ hk _ => hp.isHidden (isLive_of_kind? hk)⟩

/-- Whatever happens to widgets that do not belong to the pages. -/
theorem Touches.spares (ht : Touches H Widget.SameKind s t) (hs : s.WellFormed)
    (hH : ∀ k, H k → ∀ kind, s.kind? k = some kind → kind.isPaged = false) : Spares s t := by
  refine ⟨ht.retains (fun _ _ p => p) hs, fun h kind hk hp => ?_⟩
  have hframe : t.widget? h = s.widget? h := ht.frame h fun hin => by
    have hfalse := hH h hin kind hk
    rw [hp] at hfalse
    cases hfalse
  rw [isHidden, isHidden, hframe]

theorem Touches.shows_spares (ht : Touches H Widget.SameShow s t) (hs : s.WellFormed) :
    Spares s t := by
  refine ⟨ht.retains (fun _ _ => Widget.SameShow.sameKind) hs, fun h kind hk _ => ?_⟩
  obtain ⟨w, hw, -⟩ := Option.map_eq_some_iff.mp hk
  obtain ⟨v, hv, -, hh⟩ := ht.exists_widget hw
  rw [isHidden, isHidden, hw, hv]
  exact hh

theorem WellFormed.spares_modify (hs : s.WellFormed) {f : Widget → Widget}
    (hf : ∀ w : Widget, w.SameShow (f w)) : Spares s (s.modify h f) :=
  (touches_modify (P := Widget.SameShow) (h := h) (fun _ => ⟨rfl, rfl⟩) hf).shows_spares hs

theorem Restyles.spares (hr : Restyles H s t) (hs : s.WellFormed) : Spares s t :=
  (hr.preserves hs).spares

theorem WellFormed.spares_setHidden (hs : s.WellFormed)
    (hk : ∀ kind, s.kind? h = some kind → kind.isPaged = false) (b : Bool) :
    Spares s (s.setHidden h b) :=
  Touches.spares (H := (· = h))
    (touches_modify (P := Widget.SameKind) (fun _ => rfl) fun _ => rfl) hs fun _ he => he ▸ hk

end Screen

namespace Refresh

variable {r : Refresh} {s : Screen} {c : Control}

/-- A control that depends on no variable is left alone. -/
theorem control_constant (hc : c.Constant) : r.control s c = s := by
  have htext : r.text c s = s := text_of_none (affected?_none hc.template)
  have hclasses : r.classes c s = s := by
    rw [classes, hc.classTemplate]
    rfl
  have hbound : r.bound c s = s := bound_of_none hc.bound
  have hvisible : r.visibility c s = s := visibility_of_ne fun he => by
    rw [hc.visible] at he
    cases he
  have hcolors : r.colors c s = s := by
    rw [colors, hc.bgcolor, hc.color]
    rfl
  rw [control, htext, hclasses, hbound, hvisible, hcolors]

theorem control_spares (hs : s.WellFormed) (hf : c.Fits s) : s.Spares (r.control s c) := by
  by_cases hp : c.kind = .page
  · rw [control_constant (hf.page hp)]
    exact Screen.Spares.refl hs
  · apply (control_touches hs hf).spares hs
    intro h ho kind hk
    obtain ⟨k, hk', hn⟩ := hf.kind h ho
    rw [hk'] at hk
    cases hk
    by_contra hpaged
    exact hp (hn.mp (WidgetKind.navigates_of_isPaged (Bool.not_eq_false _ ▸ hpaged)))

theorem foldl_spares {cs : List Control} (hs : s.WellFormed) (hf : ∀ c ∈ cs, c.Fits s) :
    s.Spares (cs.foldl r.control s) := by
  induction cs generalizing s with
  | nil => exact Screen.Spares.refl hs
  | cons c cs ih =>
    have hc := control_spares (r := r) hs (hf c (by simp))
    exact hc.trans (ih hc.retains.wellFormed fun d hd => (hf d (by simp [hd])).retain hc.retains)

end Refresh

namespace Session

variable {s t u : Session} {h : Handle}

/-- The session stays well formed, has the same pages, and goes on showing one, if it did. -/
structure Keeps (s t : Session) : Prop where
  wellFormed : t.WellFormed
  retains : s.screen.Retains t.screen
  pages : t.nav.pages = s.nav.pages
  exclusive : s.nav.Exclusive s.screen → t.nav.Exclusive t.screen

theorem Keeps.refl (hs : s.WellFormed) : Keeps s s := ⟨hs, Screen.Retains.refl hs.screen, rfl, id⟩

theorem Keeps.trans (h₁ : Keeps s t) (h₂ : Keeps t u) : Keeps s u :=
  ⟨h₂.wellFormed, h₁.retains.trans h₂.retains, h₂.pages.trans h₁.pages,
    fun he => h₂.exclusive (h₁.exclusive he)⟩

/-- The widgets that can be shown, and their dots, are of paged kinds. -/
theorem WellFormed.paged (hs : s.WellFormed) (hh : h ∈ s.nav.targets ++ s.nav.allDots) :
    ∃ kind, s.screen.kind? h = some kind ∧ kind.isPaged = true := by
  rcases List.mem_append.mp hh with hh | hh
  · rcases List.mem_append.mp hh with hh | hh
    · obtain ⟨p, hp, rfl⟩ := List.mem_map.mp hh
      exact ⟨.page, hs.nav.page p hp, rfl⟩
    · obtain ⟨g, hg, rfl⟩ := List.mem_map.mp hh
      exact ⟨.tileView, hs.nav.view g hg, rfl⟩
  · exact ⟨.indicator, hs.nav.dots_kind hh, rfl⟩

/-- What spares the pages and leaves the rest of the session alone. -/
theorem Keeps.spare (hs : s.WellFormed) (hsp : s.screen.Spares t.screen)
    (hc : t.controls.map Control.wiring = s.controls.map Control.wiring) (hn : t.nav = s.nav)
    (hr : t.router.subscriptions = s.router.subscriptions) : Keeps s t where
  wellFormed := hs.retain hsp.retains hc hn hr
  retains := hsp.retains
  pages := congrArg Navigation.pages hn
  exclusive he := by
    rw [hn]
    apply he.congr (SameTargets.refl s.nav) rfl rfl
    intro h hh
    obtain ⟨kind, hk, hp⟩ := hs.paged hh
    exact hsp.hidden h kind hk hp

theorem Keeps.mapScreen (hs : s.WellFormed) {f : Screen → Screen}
    (hsp : s.screen.Spares (f s.screen)) : Keeps s (s.mapScreen f) :=
  Keeps.spare (t := s.mapScreen f) hs hsp rfl rfl rfl

/-- What touches neither widgets nor controls nor pages. -/
theorem Keeps.aside (hs : s.WellFormed) (hsc : t.screen = s.screen)
    (hc : t.controls = s.controls) (hn : t.nav = s.nav)
    (hr : t.router.subscriptions = s.router.subscriptions) : Keeps s t :=
  Keeps.spare hs (by rw [hsc]; exact Screen.Spares.refl hs.screen) (hc ▸ rfl) hn hr

theorem Keeps.foldl {α : Type} {f : Session → α → Session} {as : List α}
    (hf : ∀ s a, s.WellFormed → a ∈ as → Keeps s (f s a)) (hs : s.WellFormed) :
    Keeps s (as.foldl f s) := by
  induction as generalizing s with
  | nil => exact Keeps.refl hs
  | cons a as ih =>
    have ha := hf s a hs (by simp)
    exact ha.trans (ih (fun s b hs hb => hf s b hs (by simp [hb])) ha.wellFormed)

/-! ## Signals and variables -/

theorem tell_keeps (hs : s.WellFormed) (signal : Signal) : Keeps s (s.tell signal) := by
  unfold tell
  split
  · exact Keeps.aside hs rfl rfl rfl rfl
  · exact Keeps.refl hs

theorem tellIf_keeps (hs : s.WellFormed) (function : String) (signal : String → Signal) :
    Keeps s (s.tellIf function signal) := by
  unfold tellIf
  split
  · exact Keeps.refl hs
  · exact tell_keeps hs _

theorem withStore_keeps (hs : s.WellFormed) (store : Store) : Keeps s (s.withStore store) :=
  Keeps.aside hs rfl rfl rfl rfl

theorem refresh_keeps (hs : s.WellFormed) (name value : String) :
    Keeps s (s.refresh name value) :=
  Keeps.mapScreen hs (f := fun screen => s.controls.foldl (s.refreshOf name value).control screen)
    (Refresh.foldl_spares hs.screen hs.fits)

theorem accept_keeps (hs : s.WellFormed) (name value : String) : Keeps s (s.accept name value) := by
  have hstore := withStore_keeps hs (s.store.setText name value false).2
  exact hstore.trans (refresh_keeps hstore.wellFormed name value)

theorem assign_keeps (hs : s.WellFormed) (name value : String) : Keeps s (s.assign name value) := by
  have hstore := withStore_keeps hs (s.store.setText name value true).2
  unfold assign
  show Keeps s (if (s.store.setText name value true).1 = true then _ else _)
  split
  · exact hstore.trans (refresh_keeps hstore.wellFormed name _)
  · exact hstore

theorem assignSilently_keeps (hs : s.WellFormed) (name value : String) :
    Keeps s (s.assignSilently name value) :=
  withStore_keeps hs _

theorem syncControl_spares (store : Store) {screen : Screen} (hs : screen.WellFormed)
    (c : Control) : screen.Spares (syncControl store screen c) := by
  unfold syncControl
  split
  · exact hs.spares_modify fun _ => ⟨rfl, rfl⟩
  · exact hs.spares_modify fun _ => ⟨rfl, rfl⟩
  · exact hs.spares_modify fun _ => ⟨rfl, rfl⟩
  · exact Screen.Spares.refl hs

theorem sync_keeps (hs : s.WellFormed) : Keeps s s.sync := by
  have hfold (cs : List Control) {screen : Screen} (hs : screen.WellFormed) :
      screen.Spares (cs.foldl (syncControl s.store) screen) := by
    induction cs generalizing screen with
    | nil => exact Screen.Spares.refl hs
    | cons c cs ih =>
      have hc := syncControl_spares s.store hs c
      exact hc.trans (ih hc.retains.wellFormed)
  exact Keeps.mapScreen hs (f := fun screen => s.controls.foldl (syncControl s.store) screen)
    (hfold s.controls hs.screen)

end Session
end ScreenMarkup
