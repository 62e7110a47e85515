import ScreenMarkup.Proofs.Session.Bindings
import ScreenMarkup.Proofs.Session.Redrawing
import ScreenMarkup.Proofs.State.Canonical

/-!
# Synchronisation

A bound control is built and refreshed from the text of its variable, and
synchronised from the value itself. The two readings agree for inputs, for
truth values on switches and for integers on sliders. They do not agree for
every value, so a synchronisation can change a screen that is up to date.
-/

set_option autoImplicit false

namespace ScreenMarkup

namespace Control

variable {store : Store} {s : Screen} {c : Control} {w : Widget} {v : String}

/-- Reading the variable itself gives the control what reading its text gives. -/
structure ReadsAlike (store : Store) (s : Screen) (c : Control) (v : String) : Prop where
  switch : c.kind = .switch → store.bool v = readBool (store.text v)
  slider : c.kind = .slider → ∀ w, s.widget? c.obj = some w →
    Widget.clampValue w.low w.high (store.int v) =
      Widget.clampValue w.low w.high (Numeric.leadingInt (store.text v).toList)

/-- What a synchronisation makes of the widget of a control. -/
def synced (store : Store) (c : Control) (w : Widget) : Widget :=
  match c.bind, c.kind with
  | some v, .switch => { w with checked := store.bool v }
  | some v, .slider => w.setValue (store.int v)
  | some v, .input => { w with text := store.text v }
  | _, _ => w

theorem syncControl_redraws (store : Store) (s : Screen) (c : Control) :
    Screen.Redraws (Widget.change c.obj (c.synced store)) s (Session.syncControl store s c) := by
  have hrefl (hsame : ∀ w, c.synced store w = w) :
      Screen.Redraws (Widget.change c.obj (c.synced store)) s s :=
    (Screen.Redraws.refl s).congr fun k w _ => by simp [Widget.change, hsame]
  unfold Session.syncControl
  split
  · next hb hk =>
    exact (Screen.redraws_modify s c.obj _).congr fun k w _ => by
      simp only [Widget.change, synced, hb, hk]
  · next hb hk =>
    exact (Screen.redraws_modify s c.obj _).congr fun k w _ => by
      simp only [Widget.change, synced, hb, hk]
  · next hb hk =>
    exact (Screen.redraws_modify s c.obj _).congr fun k w _ => by
      simp only [Widget.change, synced, hb, hk]
  · next hswitch hslider hinput =>
    refine hrefl fun w => ?_
    unfold synced
    split
    · next hb hk => exact absurd hk (hswitch _ hb)
    · next hb hk => exact absurd hk (hslider _ hb)
    · next hb hk => exact absurd hk (hinput _ hb)
    · rfl

/-- A control that shows the text of its variable stays as it is exactly when it reads the
variable alike. -/
theorem synced_eq_iff (hw : s.widget? c.obj = some w)
    (hv : ∀ v, c.bind = some v →
      (c.kind = .switch → w.checked = readBool (store.text v)) ∧
      (c.kind = .slider → w.value =
        Widget.clampValue w.low w.high (Numeric.leadingInt (store.text v).toList)) ∧
      (c.kind = .input → w.text = store.text v)) :
    c.synced store w = w ↔ ∀ v, c.bind = some v → c.ReadsAlike store s v := by
  cases hb : c.bind with
  | none => simp [synced, hb]
  | some v =>
    obtain ⟨hswitch, hslider, hinput⟩ := hv v hb
    have hreads : (∀ n, some v = some n → c.ReadsAlike store s n) ↔ c.ReadsAlike store s v := by
      simp
    rw [hreads]
    cases hk : c.kind with
    | switch =>
      have hsynced : c.synced store w = { w with checked := store.bool v } := by
        simp only [synced, hb, hk]
      rw [hsynced]
      constructor
      · intro he
        exact ⟨fun _ => (congrArg Widget.checked he).trans (hswitch hk), by simp [hk]⟩
      · intro hr
        rw [hr.switch hk, ← hswitch hk]
    | slider =>
      have hsynced : c.synced store w = w.setValue (store.int v) := by
        simp only [synced, hb, hk]
      rw [hsynced]
      constructor
      · intro he
        refine ⟨by simp [hk], fun _ u hu => ?_⟩
        rw [hw, Option.some.injEq] at hu
        subst hu
        exact (congrArg Widget.value he).trans (hslider hk)
      · intro hr
        rw [Widget.setValue, hr.slider hk w hw, ← hslider hk]
    | input =>
      have hsynced : c.synced store w = { w with text := store.text v } := by
        simp only [synced, hb, hk]
      rw [hsynced, ← hinput hk]
      exact ⟨fun _ => ⟨by simp [hk], by simp [hk]⟩, fun _ => rfl⟩
    | _ =>
      have hsynced : c.synced store w = w := by simp only [synced, hb, hk]
      rw [hsynced]
      exact ⟨fun _ => ⟨by simp [hk], by simp [hk]⟩, fun _ => rfl⟩

end Control

namespace Session

variable {s : Session}

theorem sync_redraws (hs : s.WellFormed) :
    Screen.Redraws
      (Controls.each (fun c => Widget.change c.obj (c.synced s.store)) s.controls) s.screen
      s.sync.screen := by
  refine Controls.foldl_redraws (fun c k w => ?_) (fun c k w ho => ?_)
    (fun screen c _ _ => Control.syncControl_redraws s.store screen c) hs.apart hs.screen hs.fits
  · unfold Widget.change Control.synced
    split
    · split <;> rfl
    · rfl
  · exact if_neg fun hk : k = c.obj => ho (hk ▸ c.owns_obj)

/-- On a screen that shows the variables, a synchronisation changes nothing exactly when every
bound control reads its variable alike. -/
theorem Consistent.sync_iff (hs : s.WellFormed) (hp : s.Consistent) :
    s.screen.SameTree s.sync.screen ↔
      ∀ c ∈ s.controls, ∀ v, c.bind = some v → c.ReadsAlike s.store s.screen v := by
  have hidle : Screen.Redraws (Controls.each (fun _ _ w => w) s.controls) s.screen s.screen :=
    (Screen.Redraws.refl s.screen).congr fun k w _ => by
      unfold Controls.each
      split <;> rfl
  rw [hidle.sameTree_iff (sync_redraws hs),
    Controls.each_eq_iff hs.apart (P := fun k w => s.screen.widget? k = some w)]
  refine forall₂_congr fun c hc => ?_
  obtain ⟨w, hw⟩ := Screen.isLive_iff.mp ((hs.fits c hc).live c.owns_obj)
  rw [← Control.synced_eq_iff hw fun v hv => ?_]
  · constructor
    · intro hall
      have hobj := hall c.obj c.owns_obj w hw
      rwa [Widget.change_self] at hobj
    · intro hsame k _ u hu
      by_cases hk : k = c.obj
      · subst hk
        rw [hw, Option.some.injEq] at hu
        rw [Widget.change_self, ← hu, hsame]
      · rw [Widget.change_of_ne hk, id]
  · obtain ⟨u, hu, hshown⟩ := hp.value hc hv
    rw [hw, Option.some.injEq] at hu
    exact hu ▸ hshown

/-- After a document on a cleared screen and any writes, a synchronisation changes nothing exactly
when every bound control reads its variable alike. A switch does for texts and truth values, for
the integers zero and one and for a number that is zero; a slider does for texts and for 32-bit
integers, and an input always. -/
theorem sync_unchanged_iff (config : Config) (history : List Operation) (markup : String)
    (run : List Operation) (hrun : ∀ o ∈ run, ∃ name value, name ≠ "" ∧ o = .assign name value) :
    let s := ((((Session.new config).after history).clear).render markup).after run
    (s.screen.SameTree s.sync.screen ↔
      ∀ c ∈ s.controls, ∀ v, c.bind = some v → c.ReadsAlike s.store s.screen v) ∧
    ∀ v x, s.store.get? v = some x →
      (s.store.bool v = readBool (s.store.text v) ↔
        match x.value with
        | .string _ | .bool _ => True
        | .int n => n = 0 ∨ n = 1
        | .float y => y.isZero = true) ∧
      ((match x.value with
        | .string _ => True
        | .int n => Numeric.minInt32 ≤ n ∧ n ≤ Numeric.maxInt32
        | _ => False) → s.store.int v = Numeric.leadingInt (s.store.text v).toList) := by
  intro s
  have hcleared := ((wellFormed_new config).after history).clear
  have hrendered := hcleared.render markup
  have hconsistent : s.Consistent :=
    assigns_consistent hrendered (render_consistent hcleared rfl markup) hrun
  refine ⟨hconsistent.sync_iff (hrendered.after run), fun v x hx => ?_⟩
  have htext : s.store.text v = x.value.text := by simp [Store.text, hx]
  have hbool : s.store.bool v = x.value.toBool := by simp [Store.bool, hx]
  have hint : s.store.int v = x.value.toInt := by simp [Store.int, hx]
  rw [htext, hbool, hint]
  refine ⟨eq_comm.trans x.value.readBool_text_iff, fun hvalue => ?_⟩
  split at hvalue
  · next t ht => rw [ht]; rfl
  · next n hn => rw [hn]; exact (Value.leadingInt_intText hvalue.1 hvalue.2).symm
  · exact hvalue.elim

theorem sync_unchanged_for_input :
    let s := ((((Session.new {}).after []).clear).render "<input bind='x'/>").after
      [.assign "x" "1"]
    s.screen.SameTree s.sync.screen := by
  intro s
  obtain ⟨hiff, -⟩ := sync_unchanged_iff {} [] "<input bind='x'/>" [.assign "x" "1"] (by
    intro o ho
    rw [List.mem_singleton.mp ho]
    exact ⟨"x", "1", by decide, rfl⟩)
  have hkinds : s.controls.all (fun c => c.kind = .input) = true := by decide +kernel
  refine hiff.mpr fun c hc v _ => ?_
  have hk : c.kind = .input := of_decide_eq_true (List.all_eq_true.mp hkinds c hc)
  exact ⟨by simp [hk], by simp [hk]⟩

/-- The switch shows five as false, since only the text one is true, and a synchronisation as
true, since it is not zero. -/
theorem not_sync_unchanged :
    ¬ ∀ (config : Config) (history : List Operation) (markup : String) (run : List Operation),
      (∀ o ∈ run, ∃ name value, name ≠ "" ∧ o = .assign name value) →
      let s := ((((Session.new config).after history).clear).render markup).after run
      s.screen.SameTree s.sync.screen := by
  intro hall
  have htree := hall {} [] "<state><int name='n' default='5'/></state><switch bind='n'/>" []
    (by simp)
  have hkept := htree.widget ⟨1, 1⟩
  revert hkept
  decide +kernel

end Session
end ScreenMarkup
