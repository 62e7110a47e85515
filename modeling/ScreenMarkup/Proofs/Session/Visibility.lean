import ScreenMarkup.Proofs.Session.Bindings
import ScreenMarkup.Proofs.Session.Frame
import ScreenMarkup.Proofs.Session.SiteRendering
import ScreenMarkup.Proofs.Session.WriteRuns

/-!
# Visibility

An element whose visibility is bound is hidden whenever its variable is not
true, from its rendering on. It gets a control for this even if it has no id.
Only tabs without an id are left without one, and stay visible.
-/

set_option autoImplicit false

namespace ScreenMarkup.Session

variable {s t : Session} {k : Handle} {writes : List (String × String)}

theorem assignAll_eq_after (s : Session) (writes : List (String × String)) :
    s.assignAll writes = s.after (writes.map fun w => .assign w.1 w.2) := by
  induction writes generalizing s with
  | nil => rfl
  | cons w writes ih => exact ih (s.assign w.1 w.2)

theorem assignAll_consistent (hs : s.WellFormed) (hp : s.Consistent)
    (hn : ∀ w ∈ writes, w.1 ≠ "") : (s.assignAll writes).Consistent := by
  rw [assignAll_eq_after]
  refine assigns_consistent hs hp fun o ho => ?_
  obtain ⟨w, hw, rfl⟩ := List.mem_map.mp ho
  exact ⟨w.1, w.2, hn w hw, rfl⟩

theorem assignAll_controls (hs : s.WellFormed) (writes : List (String × String)) :
    (s.assignAll writes).controls = s.controls :=
  assignAll_keeps (P := fun u => u.controls = s.controls) hs rfl
    (fun u name value _ _ hP => (u.assign_kept name value).1.trans hP) writes

/-- A widget that no control owns stays as it is. -/
theorem assignAll_widget_frame (hs : s.WellFormed) (ho : ∀ c ∈ s.controls, ¬ c.Owns k)
    (writes : List (String × String)) :
    (s.assignAll writes).screen.widget? k = s.screen.widget? k :=
  assignAll_keeps (P := fun u => u.screen.widget? k = s.screen.widget? k) hs rfl
    (fun _ _ _ hu he hP => (assign_widget_frame hu fun c hc _ => ho c (he ▸ hc)).trans hP)
    writes

/-- On a cleared screen, every element whose visibility is bound to a variable is hidden exactly
when the variable is not true, after its rendering and after any run of writes. Tabs that have no
id are the only exception, and only while their variable is not true. The elements are all that were
built: a widget that was not laid out before is that of an element or stands inside of one. -/
theorem visibility_follows_iff (config : Config) (history : List Operation) (markup : String) :
    let s := ((Session.new config).after history).clear
    let t := s.render markup
    (∀ h, ∀ k ∈ t.screen.children h, (s.layOut markup).1.screen.isLive k = true ∨
      (∃ q ∈ s.sites markup, q.parent = h ∧ q.widget = k) ∨
      ∃ q ∈ s.sites markup, q.widget = h) ∧
    ∀ q ∈ s.sites markup, q.attrs.hasBoundVisibility = true →
      ∀ v, Control.bound? q.attrs.visible = some v →
        ∀ writes, (∀ w ∈ writes, w.1 ≠ "") →
          let u := t.assignAll writes
          u.screen.isLive q.widget = true ∧
          ((u.screen.isHidden q.widget = true ↔ readBool (u.store.text v) = false) ↔
            q.kind ≠ .tabs ∨ q.attrs.id ≠ "" ∨ readBool (u.store.text v) = true) := by
  intro s t
  have hs : s.WellFormed := ((wellFormed_new config).after history).clear
  have ht : t.WellFormed := hs.render markup
  have hwaits : s.Waits := fun _ _ => rfl
  refine ⟨render_covered hs hwaits markup, fun q hq hbound v hv writes hn => ?_⟩
  intro u
  have hu : u.Consistent := assignAll_consistent ht (render_consistent hs rfl markup) hn
  have hcontrols : u.controls = t.controls := assignAll_controls ht writes
  rcases render_serves hs hwaits markup q hq with ⟨c, hc, hmarks⟩ | hbare
  · have hbind : c.visibleBind = some v := by
      rw [hmarks.visible, if_pos hbound, hv]
    obtain ⟨w, hw, hhidden⟩ := hu.visible (hcontrols ▸ hc) hbind
    rw [hmarks.target] at hw
    have hid : q.kind ≠ .tabs ∨ q.attrs.id ≠ "" := by
      by_cases hk : q.kind = .tabs
      · exact .inr (hmarks.id (.inr hk) ▸ hmarks.named)
      · exact .inl hk
    refine ⟨Screen.isLive_iff.mpr ⟨w, hw⟩, ?_⟩
    rw [Screen.isHidden, hw]
    exact iff_of_true hhidden (or_assoc.mp (.inl hid))
  · obtain ⟨hkind, w, hw, -, hshown⟩ := hbare.visible hbound
    have hlater : u.screen.widget? q.widget = some w :=
      (assignAll_widget_frame ht hbare.unowned writes).trans hw
    refine ⟨Screen.isLive_iff.mpr ⟨w, hlater⟩, ?_⟩
    have hseen : u.screen.isHidden q.widget = false := by
      rw [Screen.isHidden, hlater]
      exact hshown
    simp [hseen, hkind, hbare.unnamed]

/-- A label without an id, in tabs. -/
theorem visibility_follows_of_label :
    let s := ((Session.new {}).after []).clear
    let markup := "<state><bool name='v'/></state>" ++
      "<tabs><tab><label visible='\x7bv\x7d'>a</label></tab></tabs>"
    let u := (s.render markup).assignAll [("v", "true"), ("w", "1"), ("v", "false")]
    ∃ q ∈ s.sites markup, (q.kind = .label ∧ q.attrs.id = "") ∧
      u.screen.isHidden q.widget = true := by
  intro s markup u
  have hfacts : (∃ q ∈ s.sites markup, q.kind = .label ∧ q.attrs.id = "" ∧
      q.attrs.hasBoundVisibility = true ∧ Control.bound? q.attrs.visible = some "v") ∧
      readBool (u.store.text "v") = false := by
    decide +kernel
  obtain ⟨⟨q, hq, hkind, hid, hbound, hv⟩, hfalse⟩ := hfacts
  obtain ⟨-, hall⟩ := visibility_follows_iff {} [] markup
  obtain ⟨-, hshown⟩ := hall q hq hbound "v" hv [("v", "true"), ("w", "1"), ("v", "false")]
    (by decide)
  exact ⟨q, hq, ⟨hkind, hid⟩, (hshown.mpr (.inl (by rw [hkind]; decide))).mpr hfalse⟩

/-- Tabs without an id are never hidden by their variable. -/
theorem not_visibility_follows :
    ¬ ∀ (config : Config) (history : List Operation) (markup : String),
      let s := ((Session.new config).after history).clear
      let t := s.render markup
      ∀ q ∈ s.sites markup, q.attrs.hasBoundVisibility = true →
        ∀ v, Control.bound? q.attrs.visible = some v →
          ∀ writes, (∀ w ∈ writes, w.1 ≠ "") →
            let u := t.assignAll writes
            u.screen.isHidden q.widget = true ↔ readBool (u.store.text v) = false := by
  intro hall
  have hsite : ∃ q ∈ (((Session.new {}).after []).clear).sites
      "<state><bool name='v'/></state><tabs visible='\x7bv\x7d'/>",
      q.attrs.hasBoundVisibility = true ∧ Control.bound? q.attrs.visible = some "v" ∧
        q.widget = ⟨1, 1⟩ := by
    decide +kernel
  obtain ⟨q, hq, hbound, hv, hwidget⟩ := hsite
  have hhidden := hall {} [] _ q hq hbound "v" hv [] nofun
  rw [hwidget] at hhidden
  exact absurd hhidden (by decide +kernel)

end ScreenMarkup.Session
