import ScreenMarkup.Proofs.Session.WellFormed
import ScreenMarkup.Session.Build.Registration

/-!
# Widgets under construction

A builder makes widgets that nothing refers to yet, changes them, and last
records a control for them. `Draft` describes a session in the middle of
this, with what the unclaimed widgets show; `Builds` describes the whole:
the old screen stays as it is, and the new controls show their variables.
-/

set_option autoImplicit false

namespace ScreenMarkup

/-- The value lies in the range, which consists of 32-bit integers. An inverted range holds its
lower end only. -/
structure WidgetContent.InRange (C : WidgetContent) : Prop where
  low : Numeric.minInt32 ≤ C.low
  high : max C.high C.low ≤ Numeric.maxInt32
  value : C.low ≤ C.value ∧ C.value ≤ max C.high C.low

theorem Widget.clampValue_mem (low high v : Int) :
    low ≤ clampValue low high v ∧ clampValue low high v ≤ max high low := by
  unfold clampValue
  omega

/-- A value that was forced into the range lies there. -/
theorem WidgetContent.InRange.clamp {C : WidgetContent} {v : Int}
    (hv : C.value = Widget.clampValue C.low C.high v)
    (hlow : Numeric.minInt32 ≤ C.low ∧ C.low ≤ Numeric.maxInt32)
    (hhigh : C.high ≤ Numeric.maxInt32) : C.InRange :=
  ⟨hlow.1, Int.max_le.mpr ⟨hhigh, hlow.2⟩, hv ▸ Widget.clampValue_mem C.low C.high v⟩

namespace Control

/-- The content is what the template and the theme of the control ask for. -/
def TextIn (store : Store) (c : Control) (C : WidgetContent) : Prop :=
  ∀ t, c.template = some t →
    match c.theme with
    | none => C.text = Template.render t store
    | some theme => C.spans = Markdown.render (Template.render t store) theme

/-- The content is what the bound variable of the control asks for. -/
def ValueIn (store : Store) (c : Control) (C : WidgetContent) : Prop :=
  ∀ v, c.bind = some v →
    match c.kind with
    | .switch => C.checked = readBool (store.text v)
    | .slider =>
      C.value = Widget.clampValue C.low C.high (Numeric.leadingInt (store.text v).toList)
    | .input => C.text = store.text v
    | _ => True

def VisibleIn (store : Store) (c : Control) (C : WidgetContent) : Prop :=
  ∀ v, c.visibleBind = some v → C.hidden = !readBool (store.text v)

def ShowsText (store : Store) (s : Screen) (c : Control) : Prop :=
  ∃ w, s.widget? c.obj = some w ∧ c.TextIn store w.content

def ShowsValue (store : Store) (s : Screen) (c : Control) : Prop :=
  ∃ w, s.widget? c.obj = some w ∧ c.ValueIn store w.content

def ShowsVisibility (store : Store) (s : Screen) (c : Control) : Prop :=
  ∃ w, s.widget? c.target = some w ∧ c.VisibleIn store w.content

/-- The control is new to `s` and shows its variables on `u`. -/
structure Built (s : Session) (u : Screen) (c : Control) : Prop where
  fresh : ∀ h, c.Owns h → s.screen.widget? h = none
  fits : c.Fits u
  kind : c.kind ≠ .page
  text : c.ShowsText s.store u
  value : c.ShowsValue s.store u
  visibility : c.ShowsVisibility s.store u
  slider : c.kind = .slider →
    c.lastUpdate = none ∧ ∃ w, u.widget? c.obj = some w ∧ w.content.InRange

theorem Built.congr {s : Session} {u v : Screen} {c : Control} (hb : c.Built s u)
    (hw : ∀ h, c.Owns h → v.widget? h = u.widget? h) : c.Built s v := by
  refine { hb with
    fits := hb.fits.congr hw
    text := ?_
    value := ?_
    visibility := ?_
    slider := fun hk => (hb.slider hk).imp_right fun ⟨w, hu, hr⟩ =>
      ⟨w, (hw _ c.owns_obj).trans hu, hr⟩ }
  · obtain ⟨w, hu, ht⟩ := hb.text
    exact ⟨w, (hw _ c.owns_obj).trans hu, ht⟩
  · obtain ⟨w, hu, ht⟩ := hb.value
    exact ⟨w, (hw _ c.owns_obj).trans hu, ht⟩
  · obtain ⟨w, hu, ht⟩ := hb.visibility
    exact ⟨w, (hw _ c.owns_target).trans hu, ht⟩

end Control

namespace Router

variable {r : Router} {h : Handle} {kind : EventKind} {l : Listener}

theorem mem_subscribe {entry e : EventKind × Listener} {ss : List Subscription}
    {q : Subscription} (hq : q ∈ subscribe h entry ss) (he : e ∈ q.listeners) :
    (q.widget = h ∧ e = entry) ∨ ∃ p ∈ ss, p.widget = q.widget ∧ e ∈ p.listeners := by
  induction ss with
  | nil =>
    simp only [subscribe, List.mem_singleton] at hq
    subst hq
    exact .inl ⟨rfl, by simpa using he⟩
  | cons s ss ih =>
    have old (hs : q ∈ s :: ss) : ∃ p ∈ s :: ss, p.widget = q.widget ∧ e ∈ p.listeners :=
      ⟨q, hs, rfl, he⟩
    unfold subscribe at hq
    split at hq
    · next hslot =>
      split at hq
      · next hgen =>
        rcases List.mem_cons.mp hq with rfl | hq
        · rcases List.mem_append.mp he with he | he
          · exact .inr ⟨s, by simp, rfl, he⟩
          · have hw : s.widget = h := by
              cases hs : s.widget
              cases h
              simp_all
            exact .inl ⟨hw, by simpa using he⟩
        · exact .inr (old (by simp [hq]))
      · split at hq
        · rcases List.mem_cons.mp hq with rfl | hq
          · exact .inl ⟨rfl, by simpa using he⟩
          · exact .inr (old (by simp [hq]))
        · exact .inr (old hq)
    · rcases List.mem_cons.mp hq with rfl | hq
      · exact .inr (old (by simp))
      · rcases ih hq with hnew | ⟨p, hp, hw, he⟩
        · exact .inl hnew
        · exact .inr ⟨p, by simp [hp], hw, he⟩

/-- A listener that stands somewhere stood there before or was just put there. -/
theorem mem_onAll {kinds : List EventKind} {q : Subscription} {e : EventKind × Listener}
    (hq : q ∈ (r.onAll h kinds l).subscriptions) (he : e ∈ q.listeners) :
    (q.widget = h ∧ e.2 = l) ∨ ∃ p ∈ r.subscriptions, p.widget = q.widget ∧ e ∈ p.listeners := by
  induction kinds generalizing r with
  | nil => exact .inr ⟨q, hq, rfl, he⟩
  | cons kind kinds ih =>
    rcases ih hq with hnew | ⟨p, hp, hw, hep⟩
    · exact .inl hnew
    · unfold on at hp
      split at hp
      · exact .inr ⟨p, hp, hw, hep⟩
      · rcases mem_subscribe hp hep with ⟨hph, rfl⟩ | ⟨p', hp', hw', hep'⟩
        · exact .inl ⟨hw.symm.trans hph, rfl⟩
        · exact .inr ⟨p', hp', hw'.trans hw, hep'⟩

/-- The listeners of an event were put there for its widget. -/
theorem mem_listeners (hl : l ∈ r.listeners h kind) :
    ∃ q ∈ r.subscriptions, q.widget = h ∧ ∃ e ∈ q.listeners, e.2 = l := by
  obtain ⟨e, he, hel⟩ := List.mem_map.mp hl
  have hall := List.mem_of_mem_filter he
  unfold all at hall
  cases hfind : r.subscriptions.find? fun q => q.widget = h with
  | none => simp [hfind] at hall
  | some q =>
    rw [hfind, Option.map_some, Option.getD_some] at hall
    exact ⟨q, List.mem_of_find?_eq_some hfind, by simpa using List.find?_some hfind, e, hall, hel⟩

end Router

namespace Session

variable {s t u : Session} {parts : List (Handle × WidgetContent)} {h : Handle}
  {C D : WidgetContent}

/-- Keyboard listeners stand on keyboards. -/
def KeyboardsListen (s : Session) : Prop :=
  ∀ r ∈ s.router.subscriptions, ∀ l ∈ r.listeners, l.2 = .keyboard →
    s.screen.kind? r.widget = some .keyboard

/-- `t` is `s` with some new widgets and controls, which show their variables. -/
structure Builds (s t : Session) : Prop where
  screen : s.screen.Extends t.screen
  rest : t = { s with
    screen := t.screen
    controls := t.controls
    router := t.router
    pendingZ := t.pendingZ
    autoId := t.autoId }
  controls : ∃ new, t.controls = s.controls ++ new ∧ new.Pairwise Control.Apart ∧
    ∀ c ∈ new, c.Built s t.screen
  keyboard : s.KeyboardsListen → t.KeyboardsListen

theorem Builds.store (hb : Builds s t) : t.store = s.store := by
  rw [hb.rest]

theorem Builds.nav (hb : Builds s t) : t.nav = s.nav := by
  rw [hb.rest]

theorem Builds.refl (hs : s.screen.WellFormed) : Builds s s where
  screen := Screen.Extends.refl hs
  rest := rfl
  controls := ⟨[], by simp, List.Pairwise.nil, by simp⟩
  keyboard hk := hk

theorem Builds.trans (h₁ : Builds s t) (h₂ : Builds t u) : Builds s u where
  screen := h₁.screen.trans h₂.screen
  rest := by
    rw [h₂.rest]
    conv_lhs => rw [h₁.rest]
  controls := by
    obtain ⟨new₁, he₁, ha₁, hb₁⟩ := h₁.controls
    obtain ⟨new₂, he₂, ha₂, hb₂⟩ := h₂.controls
    have kept : ∀ c ∈ new₁, c.Built s u.screen := by
      intro c hc
      apply (hb₁ c hc).congr
      intro h ho
      obtain ⟨w, hw⟩ := Screen.isLive_iff.mp ((hb₁ c hc).fits.live ho)
      rw [hw, h₂.screen.widget h w hw]
    have added : ∀ c ∈ new₂, c.Built s u.screen := by
      intro c hc
      have hb := hb₂ c hc
      have hfresh : ∀ h, c.Owns h → s.screen.widget? h = none := by
        intro h ho
        cases hw : s.screen.widget? h with
        | none => rfl
        | some w =>
          have hnone := hb.fresh h ho
          rw [h₁.screen.widget h w hw] at hnone
          cases hnone
      exact ⟨hfresh, hb.fits, hb.kind, h₁.store ▸ hb.text, h₁.store ▸ hb.value,
        h₁.store ▸ hb.visibility, hb.slider⟩
    refine ⟨new₁ ++ new₂, by rw [he₂, he₁, List.append_assoc], ?_, ?_⟩
    · apply List.pairwise_append.mpr
      refine ⟨ha₁, ha₂, fun c hc d hd h hoc hod => ?_⟩
      have hl := (hb₁ c hc).fits.live hoc
      rw [Screen.isLive, (hb₂ d hd).fresh h hod] at hl
      cases hl
    · intro c hc
      rcases List.mem_append.mp hc with hc | hc
      · exact kept c hc
      · exact added c hc
  keyboard hk := h₂.keyboard (h₁.keyboard hk)

/-- The screen may change wherever no control that was built has a widget. -/
theorem Builds.redraw (hb : Builds s t) {v : Screen} (hext : s.screen.Extends v)
    (hkept : ∀ c ∈ t.controls, c.Built s t.screen →
      ∀ h, c.Owns h → v.widget? h = t.screen.widget? h)
    (hkeyboard : ∀ h, t.screen.kind? h = some .keyboard → v.kind? h = some .keyboard) :
    Builds s { t with screen := v } where
  screen := hext
  rest := by
    conv_lhs => rw [hb.rest]
  controls := by
    obtain ⟨new, he, ha, hnew⟩ := hb.controls
    refine ⟨new, he, ha, fun c hc => ?_⟩
    apply (hnew c hc).congr
    apply hkept c _ (hnew c hc)
    rw [he]
    exact List.mem_append_right _ hc
  keyboard hk r hr l hl hlk := hkeyboard _ (hb.keyboard hk r hr l hl hlk)

theorem Builds.wellFormed (hb : Builds s t) (hs : s.WellFormed) : t.WellFormed where
  screen := hb.screen.wellFormed
  fits c hc := by
    obtain ⟨new, he, -, hnew⟩ := hb.controls
    rw [he] at hc
    rcases List.mem_append.mp hc with hc | hc
    · exact (hs.fits c hc).retain hb.screen.retains
    · exact (hnew c hc).fits
  apart := by
    obtain ⟨new, he, ha, hnew⟩ := hb.controls
    rw [he]
    apply List.pairwise_append.mpr
    refine ⟨hs.apart, ha, fun c hc d hd h hoc hod => ?_⟩
    have hl := (hs.fits c hc).live hoc
    rw [Screen.isLive, (hnew d hd).fresh h hod] at hl
    cases hl
  nav := by
    rw [hb.nav]
    exact hs.nav.retain hb.screen.retains
  keyboard := hb.keyboard hs.keyboard

/-- The handle names a widget that may contain others. -/
def Holds (s : Session) (h : Handle) : Prop :=
  ∃ k, s.screen.kind? h = some k ∧ k.isContainer = true

theorem Holds.isContainer (hp : s.Holds h) :
    ∀ k, s.screen.kind? h = some k → k.isContainer = true := by
  obtain ⟨k, hk, hc⟩ := hp
  exact Screen.isContainer_of_kind? hk hc

theorem Holds.retain (hp : s.Holds h) (hr : s.screen.Retains t.screen) : t.Holds h := by
  obtain ⟨k, hk, hc⟩ := hp
  exact ⟨k, hr.kind h k hk, hc⟩

theorem Builds.holds (hb : Builds s t) (hp : s.Holds h) : t.Holds h := hp.retain hb.screen.retains

/-! ## Drafts -/

/-- `s` has grown to `t`, where the widgets of `parts` are new, belong to no control, and show
what is said. -/
structure Draft (s : Session) (parts : List (Handle × WidgetContent)) (t : Session) : Prop where
  builds : Builds s t
  nodup : (parts.map (·.1)).Nodup
  fresh : ∀ p ∈ parts, s.screen.widget? p.1 = none
  content : ∀ p ∈ parts, ∃ w, t.screen.widget? p.1 = some w ∧ w.content = p.2
  unclaimed : ∀ p ∈ parts, ∀ c ∈ t.controls, ¬ c.Owns p.1

theorem Draft.nil (hb : Builds s t) : Draft s [] t where
  builds := hb
  nodup := List.nodup_nil
  fresh := by simp
  content := by simp
  unclaimed := by simp

theorem Draft.live (hd : Draft s parts t) {p : Handle × WidgetContent} (hp : p ∈ parts) :
    t.screen.isLive p.1 = true := by
  obtain ⟨w, hw, -⟩ := hd.content p hp
  exact Screen.isLive_iff.mpr ⟨w, hw⟩

theorem Draft.holds_of_mem (hd : Draft s parts t) (hp : (h, C) ∈ parts)
    (hC : C.kind.isContainer = true) : t.Holds h := by
  obtain ⟨w, hw, hc⟩ := hd.content (h, C) hp
  refine ⟨w.kind, by rw [Screen.kind?, hw, Option.map_some], ?_⟩
  have hk : w.kind = C.kind := congrArg WidgetContent.kind hc
  rw [hk]
  exact hC

theorem Draft.holds (hd : Draft s ((h, C) :: parts) t) (hC : C.kind.isContainer = true) :
    t.Holds h :=
  hd.holds_of_mem List.mem_cons_self hC

/-- Ids and stacking that waits are no matter of widgets. -/
theorem Draft.note (hd : Draft s parts t) (z : List (Handle × Int)) (n : Nat) :
    Draft s parts { t with pendingZ := z, autoId := n } where
  builds :=
    { screen := hd.builds.screen
      rest := by
        conv_lhs => rw [hd.builds.rest]
      controls := hd.builds.controls
      keyboard := hd.builds.keyboard }
  nodup := hd.nodup
  fresh := hd.fresh
  content := hd.content
  unclaimed := hd.unclaimed

theorem mapScreen_mapScreen (s : Session) (f g : Screen → Screen) :
    (s.mapScreen f).mapScreen g = s.mapScreen fun screen => g (f screen) := rfl

theorem create_eq (s : Session) (kind : WidgetKind) (parent : Handle) :
    s.create kind parent =
      ((s.screen.create kind parent).1, { s with screen := (s.screen.create kind parent).2 }) :=
  rfl

theorem Draft.create (hs : s.WellFormed) (hd : Draft s parts t) {kind : WidgetKind}
    {parent : Handle} (hp : t.Holds parent) (hc : t.create kind parent = (h, u)) :
    Draft s ((h, (Widget.new kind).content) :: parts) u := by
  rw [create_eq] at hc
  cases hc
  have ht := hd.builds.screen.wellFormed
  have hext := ht.extends_create kind hp.isContainer
  have hfresh := ht.create_fresh kind parent
  have hnew : ∀ p ∈ parts, p.1 ≠ (t.screen.create kind parent).1 := by
    intro p hp he
    have hl := hd.live hp
    rw [he, Screen.isLive, hfresh] at hl
    cases hl
  exact
    { builds := by
        apply hd.builds.redraw (hd.builds.screen.trans hext)
        · intro c _ hc h ho
          obtain ⟨w, hw⟩ := Screen.isLive_iff.mp (hc.fits.live ho)
          rw [hw, hext.widget h w hw]
        · exact fun h => hext.retains.kind h _
      nodup := by
        apply List.nodup_cons.mpr
        constructor
        · intro hin
          obtain ⟨p, hp, he⟩ := List.mem_map.mp hin
          exact hnew p hp he
        · exact hd.nodup
      fresh := by
        intro p hp
        rcases List.mem_cons.mp hp with rfl | hp
        · cases hw : s.screen.widget? (t.screen.create kind parent).1 with
          | none => rfl
          | some w =>
            rw [hd.builds.screen.widget _ w hw] at hfresh
            cases hfresh
        · exact hd.fresh p hp
      content := by
        intro p hp
        rcases List.mem_cons.mp hp with rfl | hp
        · exact ⟨Widget.new kind, by rw [ht.widget?_create, if_pos rfl], rfl⟩
        · obtain ⟨w, hw, hc⟩ := hd.content p hp
          exact ⟨w, hext.widget _ w hw, hc⟩
      unclaimed := by
        intro p hp c hc ho
        rcases List.mem_cons.mp hp with rfl | hp
        · have hl := ((hd.builds.wellFormed hs).fits c hc).live ho
          rw [Screen.isLive, hfresh] at hl
          cases hl
        · exact hd.unclaimed p hp c hc ho }

/-- A change of drafted widgets keeps the draft; what they show is up to the change. -/
theorem Draft.touch (hd : Draft s parts t) {P : Widget → Widget → Prop} {v : Screen}
    (hP : ∀ w x, P w x → Widget.SameKind w x)
    (ht : Screen.Touches (fun k => k ∈ parts.map (·.1)) P t.screen v)
    {parts' : List (Handle × WidgetContent)} (hparts : parts'.map (·.1) = parts.map (·.1))
    (hcontent : ∀ p ∈ parts', ∃ w, v.widget? p.1 = some w ∧ w.content = p.2) :
    Draft s parts' { t with screen := v } := by
  have hmem {p : Handle × WidgetContent} (hp : p ∈ parts') : ∃ q ∈ parts, q.1 = p.1 :=
    List.mem_map.mp (hparts ▸ List.mem_map_of_mem hp)
  have hold : ∀ h, h ∈ parts.map (·.1) → s.screen.widget? h = none := by
    intro h hh
    obtain ⟨p, hp, rfl⟩ := List.mem_map.mp hh
    exact hd.fresh p hp
  have hret := ht.retains hP hd.builds.screen.wellFormed
  exact
    { builds := by
        apply hd.builds.redraw (hd.builds.screen.touch hP ht hold)
        · intro c hc _ h ho
          apply ht.frame h
          intro hin
          obtain ⟨p, hp, rfl⟩ := List.mem_map.mp hin
          exact hd.unclaimed p hp c hc ho
        · exact fun h => hret.kind h _
      nodup := hparts ▸ hd.nodup
      fresh := by
        intro p hp
        obtain ⟨q, hq, hqp⟩ := hmem hp
        exact hqp ▸ hd.fresh q hq
      content := hcontent
      unclaimed := by
        intro p hp c hc
        obtain ⟨q, hq, hqp⟩ := hmem hp
        exact hqp ▸ hd.unclaimed q hq c hc }

theorem Draft.restyle (hd : Draft s parts t) {f : Screen → Screen}
    (ht : Screen.Restyles (fun k => k ∈ parts.map (·.1)) t.screen (f t.screen)) :
    Draft s parts (t.mapScreen f) := by
  refine hd.touch (fun _ _ p => p.sameKind) ht rfl fun p hp => ?_
  obtain ⟨w, hw, hc⟩ := hd.content p hp
  obtain ⟨x, hx, hxc⟩ := ht.exists_content hw
  exact ⟨x, hx, hxc.trans hc⟩

/-- A drafted widget without others inside may be deleted again. -/
theorem Draft.discard (hd : Draft s ((h, C) :: parts) t) (hC : C.kind.isContainer = false)
    (hn : C.kind.navigates = false) : Builds s (t.mapScreen (·.delete h)) := by
  have ht := hd.builds.screen.wellFormed
  obtain ⟨w, hw, hwc⟩ := hd.content (h, C) List.mem_cons_self
  have hkind : t.screen.kind? h = some C.kind := by
    rw [Screen.kind?, hw, Option.map_some]
    exact congrArg (some ·.kind) hwc
  have hscreen : h ≠ Handle.screen := by
    rintro rfl
    rw [ht.top] at hkind
    rw [← Option.some.inj hkind] at hC
    cases hC
  obtain ⟨b, hb⟩ : ∃ b, t.screen.branch? h = some b := by
    have hin := (ht.live h).mpr (hd.live List.mem_cons_self)
    exact Option.isSome_iff_exists.mp (Branch.find?_isSome _ hin)
  have hleaf : b.handles = [h] := by
    have hchildren := ht.bare h C.kind hkind hC
    obtain ⟨hbh, -⟩ := Branch.find?_eq_some _ hb
    rw [Screen.children, hb, Option.map_some, Option.getD_some, List.map_eq_nil_iff] at hchildren
    obtain ⟨k, bs⟩ := b
    cases hchildren
    cases hbh
    rfl
  have hkept (k : Handle) (hk : k ≠ h) : (t.screen.delete h).widget? k = t.screen.widget? k := by
    rw [ht.widget?_delete hscreen hb, hleaf, if_neg (by simpa using hk)]
  apply hd.builds.redraw
  · refine ⟨ht.delete h, fun k v hv => ?_⟩
    have hk : k ≠ h := by
      rintro rfl
      rw [hd.fresh _ List.mem_cons_self] at hv
      cases hv
    exact (hkept k hk).trans (hd.builds.screen.widget k v hv)
  · intro c hc _ k ho
    apply hkept
    rintro rfl
    exact hd.unclaimed _ List.mem_cons_self c hc ho
  · intro k hk
    have hne : k ≠ h := by
      rintro rfl
      rw [hkind] at hk
      rw [Option.some.inj hk] at hn
      cases hn
    exact (Screen.kind?_congr (hkept _ hne)).trans hk

/-- Restyling the first of the drafted widgets. -/
theorem Draft.restyleHead (hd : Draft s ((h, C) :: parts) t) {f : Screen → Screen}
    (ht : Screen.Restyles (· = h) t.screen (f t.screen)) :
    Draft s ((h, C) :: parts) (t.mapScreen f) :=
  hd.restyle (ht.mono fun k hk => by simp [hk])

theorem Draft.modifyHead (hd : Draft s ((h, C) :: parts) t) {f : Widget → Widget}
    (hf : ∀ w, w.content = C → (f w).content = D) (hk : ∀ w, (f w).kind = w.kind) :
    Draft s ((h, D) :: parts) (t.mapScreen (·.modify h f)) := by
  have ht : Screen.Touches (· = h) Widget.SameKind t.screen (t.screen.modify h f) :=
    Screen.touches_modify (fun _ => rfl) hk
  refine hd.touch (fun _ _ p => p) (ht.mono (fun k hk => by simp [hk]) fun _ _ p => p) rfl
    fun p hp => ?_
  rcases List.mem_cons.mp hp with rfl | hp
  · obtain ⟨w, hw, hc⟩ := hd.content (h, C) (by simp)
    exact ⟨f w, by rw [Screen.widget?_modify, if_pos rfl, hw, Option.map_some], hf w hc⟩
  · obtain ⟨w, hw, hc⟩ := hd.content p (by simp [hp])
    have hne : p.1 ≠ h := by
      intro he
      exact (List.nodup_cons.mp hd.nodup).1 (List.mem_map.mpr ⟨p, hp, he⟩)
    exact ⟨w, by rw [Screen.widget?_modify, if_neg hne, hw], hc⟩

theorem Draft.perm (hd : Draft s parts t) {parts' : List (Handle × WidgetContent)}
    (hp : parts'.Perm parts) : Draft s parts' t where
  builds := hd.builds
  nodup := (hp.map _).nodup_iff.mpr hd.nodup
  fresh p h := hd.fresh p (hp.mem_iff.mp h)
  content p h := hd.content p (hp.mem_iff.mp h)
  unclaimed p h := hd.unclaimed p (hp.mem_iff.mp h)

/-- Building something else leaves a draft as it is. -/
theorem Draft.extend (hd : Draft s parts t) (hb : Builds t u) : Draft s parts u where
  builds := hd.builds.trans hb
  nodup := hd.nodup
  fresh := hd.fresh
  content p hp := by
    obtain ⟨w, hw, hc⟩ := hd.content p hp
    exact ⟨w, hb.screen.widget _ w hw, hc⟩
  unclaimed p hp c hc ho := by
    obtain ⟨new, he, -, hnew⟩ := hb.controls
    rw [he] at hc
    rcases List.mem_append.mp hc with hc | hc
    · exact hd.unclaimed p hp c hc ho
    · have hl := hd.live hp
      rw [Screen.isLive, (hnew c hc).fresh _ ho] at hl
      cases hl

end Session
end ScreenMarkup
