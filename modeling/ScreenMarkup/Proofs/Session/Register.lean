import ScreenMarkup.Proofs.Session.Draft
import ScreenMarkup.Proofs.State.Dependency
import ScreenMarkup.Session.Build.Tree

/-!
# Steps of building

What the steps that all builders share do to a draft, up to the last one,
which records a control for the drafted widgets.
-/

set_option autoImplicit false

namespace ScreenMarkup.Session

variable {s t u : Session} {parts : List (Handle × WidgetContent)} {h : Handle} {C : WidgetContent}

/-! ## Ids, rules and places -/

theorem Draft.withId (hd : Draft s parts t) {a a' : WidgetAttrs} {kind : ControlKind}
    {needed : Bool} (hw : t.withId a kind needed = (a', u)) : Draft s parts u := by
  unfold Session.withId at hw
  split at hw
  · cases hw
    exact hd.note t.pendingZ (t.autoId + 1)
  · cases hw
    exact hd

theorem Draft.keepZIndex (hd : Draft s ((h, C) :: parts) t) (z : Int) :
    Draft s ((h, C) :: parts) (t.keepZIndex h z) := by
  have hnone : Controls.widgetIndex? t.controls h = none := by
    refine List.findIdx?_eq_none_iff.mpr fun c hc => ?_
    have := hd.unclaimed (h, C) (by simp) c hc
    simpa [Control.Owns] using this
  unfold Session.keepZIndex
  rw [hnone]
  exact hd.note _ t.autoId

theorem Draft.applyRules (hd : Draft s ((h, C) :: parts) t) (kind : ControlKind)
    (a : WidgetAttrs) : Draft s ((h, C) :: parts) (t.applyRules h kind a) := by
  unfold Session.applyRules
  extract_lets classes
  have hr := Screen.applyRules_restyles t.screen h t.sheet kind.tag a.id classes t.config.screen
  have hd := hd.restyleHead (f := fun _ => _) hr
  generalize t.screen.applyRules h t.sheet kind.tag a.id classes t.config.screen = step at hd
  obtain ⟨z, screen⟩ := step
  cases z with
  | none => exact hd
  | some z => exact hd.keepZIndex z

theorem Draft.hideForGood (hd : Draft s ((h, C) :: parts) t) (a : WidgetAttrs) :
    Draft s ((h, { C with hidden := a.isHiddenForGood || C.hidden }) :: parts)
      (t.hideForGood h a) := by
  unfold Session.hideForGood
  cases ha : a.isHiddenForGood with
  | false => simpa using hd
  | true =>
    refine hd.modifyHead (fun w hw => ?_) fun _ => rfl
    subst hw
    rfl

/-- Placing a widget aligns it or moves it, or leaves it where it is. -/
theorem place_cases (s : Session) (h : Handle) (e : Element) :
    s.place h e = s ∨ (∃ a shift, s.place h e = s.mapScreen (·.align h a shift)) ∨
      ∃ x y, s.place h e = s.mapScreen (·.setPos h x y) := by
  unfold place
  extract_lets align valign x? y?
  obtain ⟨hor, ver⟩ := Align.splitPair align
  dsimp only [mapScreen]
  generalize (if valign = "" then ver else valign) = ver
  cases x? with
  | none =>
    cases y? with
    | none =>
      dsimp only
      split
      · exact .inr (.inl ⟨_, _, rfl⟩)
      · exact .inl rfl
    | some y =>
      dsimp only
      split
      · exact .inr (.inl ⟨_, _, rfl⟩)
      · exact .inr (.inr ⟨_, _, rfl⟩)
  | some x =>
    cases y? with
    | none =>
      dsimp only
      split
      · exact .inr (.inl ⟨_, _, rfl⟩)
      · split
        · exact .inr (.inl ⟨_, _, rfl⟩)
        · exact .inr (.inr ⟨_, _, rfl⟩)
    | some y => exact .inr (.inr ⟨_, _, rfl⟩)

theorem place_restyles (s : Session) (h : Handle) (e : Element) :
    Screen.Restyles (· = h) s.screen (s.place h e).screen := by
  rcases place_cases s h e with he | ⟨a, shift, he⟩ | ⟨x, y, he⟩
  · rw [he]
    exact Screen.Restyles.refl _
  · rw [he]
    exact Screen.align_restyles _ _ _ _
  · rw [he]
    exact Screen.setPos_restyles _ _ _ _

theorem Draft.place (hd : Draft s ((h, C) :: parts) t) (e : Element) :
    Draft s ((h, C) :: parts) (t.place h e) :=
  hd.restyleHead (f := fun _ => (t.place h e).screen) (place_restyles t h e)

/-! ## Recording a control -/

/-- Whether the bound visibility of a control hides it now. -/
def veils (store : Store) (c : Control) : Bool :=
  match c.visibleBind with
  | some v => !readBool (store.text v)
  | none => false

/-- The screen after the bound visibility of a new control had its effect. -/
def veiled (s : Session) (c : Control) : Screen :=
  if veils s.store c then s.screen.setHidden c.target true else s.screen

theorem claim_eq (s : Session) (h : Handle) :
    ∃ waiting, s.claim h = (s.pendingZ.lookup h, { s with pendingZ := waiting }) ∧
      (s.pendingZ.lookup h = none → waiting = s.pendingZ) ∧
      ∀ k, s.pendingZ.lookup k = none → waiting.lookup k = none := by
  unfold claim
  cases hz : s.pendingZ.lookup h with
  | some z =>
    refine ⟨_, rfl, nofun, fun k hk => ?_⟩
    rw [lookup_filter_ne, hk, ite_self]
  | none => exact ⟨s.pendingZ, rfl, fun _ => rfl, fun _ hk => hk⟩

/-- The z-index that waits for a control. -/
def claimed (s : Session) (c : Control) : Option Int :=
  (s.pendingZ.lookup c.obj).or (c.outer.bind fun h => s.pendingZ.lookup h)

theorem claimFor_eq (s : Session) (c : Control) :
    ∃ waiting, s.claimFor c = (s.claimed c, { s with pendingZ := waiting }) ∧
      ∀ k, s.pendingZ.lookup k = none → waiting.lookup k = none := by
  obtain ⟨waiting, hz, hnone, hrest⟩ := s.claim_eq c.obj
  unfold claimFor claimed
  rw [hz]
  cases hobj : s.pendingZ.lookup c.obj with
  | some z => exact ⟨waiting, rfl, hrest⟩
  | none =>
    rw [hnone hobj]
    cases c.outer with
    | none => exact ⟨s.pendingZ, rfl, fun _ hk => hk⟩
    | some outer =>
      obtain ⟨waiting, hz, -, hrest⟩ := s.claim_eq outer
      exact ⟨waiting, hz, hrest⟩

theorem register_claims (s : Session) (c : Control) (hid : c.id ≠ "") :
    ∃ waiting, s.register c = (some s.controls.length, { s with
        screen := s.veiled c
        pendingZ := waiting
        controls := s.controls ++ [{ c with zIndex := (s.claimed c).getD c.zIndex }] }) ∧
      ∀ k, s.pendingZ.lookup k = none → waiting.lookup k = none := by
  obtain ⟨waiting, hz, hrest⟩ := claimFor_eq { s with screen := s.veiled c } c
  refine ⟨waiting, ?_, hrest⟩
  unfold register
  rw [if_neg hid]
  extract_lets veil
  have hveil : veil = { s with screen := s.veiled c } := by
    unfold veil veiled veils
    cases c.visibleBind with
    | none => rfl
    | some v => cases hv : readBool (s.store.text v) <;> simp [hv, mapScreen]
  rw [hveil, hz]
  rfl

theorem register_eq (s : Session) (c : Control) (hid : c.id ≠ "") :
    ∃ z waiting, s.register c = (some s.controls.length, { s with
      screen := s.veiled c
      pendingZ := waiting
      controls := s.controls ++ [{ c with zIndex := z }] }) := by
  obtain ⟨waiting, he, -⟩ := s.register_claims c hid
  exact ⟨_, waiting, he⟩

theorem veiled_touches (s : Session) (c : Control) :
    Screen.Touches (· = c.target) Widget.SameKind s.screen (s.veiled c) := by
  unfold veiled
  split
  · exact Screen.touches_modify (fun _ => rfl) fun _ => rfl
  · exact Screen.Touches.refl (P := Widget.SameKind) (fun _ => rfl) s.screen

theorem register_touches (s : Session) (c : Control) :
    Screen.Touches (· = c.target) Widget.SameKind s.screen (s.register c).2.screen := by
  by_cases hid : c.id = ""
  · rw [register, if_pos hid]
    exact Screen.Touches.refl (P := Widget.SameKind) (fun _ => rfl) s.screen
  · obtain ⟨z, waiting, he⟩ := s.register_eq c hid
    rw [he]
    exact s.veiled_touches c

theorem veiled_head (s : Session) (c : Control) {w : Widget}
    (hw : s.screen.widget? c.target = some w) :
    ∃ x, (s.veiled c).widget? c.target = some x ∧
      x.content = { w.content with hidden := veils s.store c || w.hidden } := by
  unfold veiled
  cases veils s.store c with
  | false => exact ⟨w, hw, by simp [Widget.content]⟩
  | true =>
    refine ⟨{ w with hidden := true }, ?_, rfl⟩
    rw [if_pos rfl, Screen.setHidden, Screen.widget?_modify, if_pos rfl, hw, Option.map_some]

/-- The content of a drafted widget once the control `c` has had its say on what is hidden. -/
def veilPart (store : Store) (c : Control) (p : Handle × WidgetContent) : Handle × WidgetContent :=
  if p.1 = c.target then (p.1, { p.2 with hidden := veils store c || p.2.hidden }) else p

theorem veilPart_fst (store : Store) (c : Control) (p : Handle × WidgetContent) :
    (veilPart store c p).1 = p.1 := by
  unfold veilPart
  split <;> rfl

theorem map_veilPart (store : Store) (c : Control) (parts : List (Handle × WidgetContent)) :
    (parts.map (veilPart store c)).map (·.1) = parts.map (·.1) := by
  rw [List.map_map]
  exact List.map_congr_left fun p _ => veilPart_fst store c p

theorem Draft.veil (hd : Draft s parts t) {c : Control} (hc : c.target ∈ parts.map (·.1)) :
    Draft s (parts.map (veilPart t.store c)) { t with screen := t.veiled c } := by
  refine hd.touch (fun _ _ p => p)
    ((t.veiled_touches c).mono (fun k hk => hk ▸ hc) fun _ _ p => p)
    (map_veilPart t.store c parts) fun p hp => ?_
  obtain ⟨q, hq, rfl⟩ := List.mem_map.mp hp
  obtain ⟨w, hw, hwc⟩ := hd.content q hq
  rw [veilPart_fst]
  unfold veilPart
  by_cases he : q.1 = c.target
  · obtain ⟨x, hx, hxc⟩ := t.veiled_head c (he ▸ hw)
    refine ⟨x, he ▸ hx, ?_⟩
    rw [if_pos he, hxc, ← hwc]
    rfl
  · rw [if_neg he, (t.veiled_touches c).frame _ he]
    exact ⟨w, hw, hwc⟩

end Session

/-! ## Recording a control -/

/-- The control fits the drafted widgets, which show what it asks for. -/
structure Control.Drawn (store : Store) (parts : List (Handle × WidgetContent)) (c : Control) :
    Prop where
  kind : c.kind ≠ .page
  owned : ∀ h, c.Owns h → ∃ p ∈ parts, p.1 = h ∧ p.2.kind.navigates = false
  shown : ∃ p ∈ parts, p.1 = c.obj ∧ c.TextIn store p.2 ∧ c.ValueIn store p.2 ∧
    (c.template ≠ none → c.theme = none → p.2.kind = .label)
  visible : c.visibleBind ≠ none → ∃ p ∈ parts, p.1 = c.target ∧ p.2.hidden = false
  bound : c.bind ≠ none → c.template = none
  slider : c.kind = .slider → c.lastUpdate = none ∧ ∃ p ∈ parts, p.1 = c.obj ∧ p.2.InRange

theorem Control.Drawn.target_mem {store : Store} {parts : List (Handle × WidgetContent)}
    {c : Control} (hc : c.Drawn store parts) : c.target ∈ parts.map (·.1) := by
  obtain ⟨p, hp, he, -⟩ := hc.owned _ c.owns_target
  exact List.mem_map.mpr ⟨p, hp, he⟩

theorem WidgetAttrs.isHiddenForGood_eq_false {a : WidgetAttrs} {kind : ControlKind} {h : Handle}
    (hv : (a.control kind h).visibleBind ≠ none) : a.isHiddenForGood = false := by
  cases hb : a.hasBoundVisibility with
  | false => simp [WidgetAttrs.control, hb] at hv
  | true => simp [WidgetAttrs.isHiddenForGood, hb]

/-- A control of one widget, which its attributes may have hidden for good. -/
theorem Control.Drawn.single {store : Store} {parts : List (Handle × WidgetContent)}
    {a : WidgetAttrs} {c : Control} {h : Handle} {C : WidgetContent}
    (hobj : c.obj = h) (houter : c.outer = none) (hkind : c.kind ≠ .page)
    (hvisible : c.visibleBind = (a.control c.kind h).visibleBind) (hhidden : C.hidden = false)
    (hC : C.kind.navigates = false) (htext : c.TextIn store C) (hvalue : c.ValueIn store C)
    (hlabel : c.template ≠ none → c.theme = none → C.kind = .label)
    (hbound : c.bind ≠ none → c.template = none)
    (hslider : c.kind = .slider → c.lastUpdate = none ∧ C.InRange) :
    c.Drawn store ((h, { C with hidden := a.isHiddenForGood || C.hidden }) :: parts) where
  kind := hkind
  owned k hk := by
    rcases hk with hk | hk
    · exact ⟨_, List.mem_cons_self, hobj.symm.trans hk, hC⟩
    · rw [houter] at hk
      cases hk
  shown := ⟨_, List.mem_cons_self, hobj.symm, htext, hvalue, hlabel⟩
  visible hv := by
    refine ⟨_, List.mem_cons_self, by rw [Control.target, houter, Option.getD_none, hobj], ?_⟩
    rw [hvisible] at hv
    show (a.isHiddenForGood || C.hidden) = false
    rw [WidgetAttrs.isHiddenForGood_eq_false hv, hhidden, Bool.or_self]
  bound := hbound
  slider hk := (hslider hk).imp_right fun hr =>
    ⟨_, List.mem_cons_self, hobj.symm, hr.low, hr.high, hr.value⟩

namespace Session

variable {s t u : Session} {parts : List (Handle × WidgetContent)} {h : Handle} {C : WidgetContent}

theorem Builds.listen (hb : Builds s t) (h : Handle) (kinds : List EventKind) {l : Listener}
    (hl : l ≠ .keyboard) : Builds s { t with router := t.router.onAll h kinds l } where
  screen := hb.screen
  rest := by
    conv_lhs => rw [hb.rest]
  controls := hb.controls
  keyboard hk r hr e he hek := by
    rcases Router.mem_onAll hr he with ⟨-, hnew⟩ | ⟨q, hq, hw, hqe⟩
    · exact absurd (hnew.symm.trans hek) hl
    · rw [← hw]
      exact hb.keyboard hk q hq e hqe hek

/-- The control of all the drafted widgets ends a draft. -/
theorem Draft.record (hd : Draft s parts t) {c : Control} (hc : c.Built s t.screen)
    (howned : ∀ h, c.Owns h → h ∈ parts.map (·.1)) (waiting : List (Handle × Int)) :
    Builds s { t with pendingZ := waiting, controls := t.controls ++ [c] } where
  screen := hd.builds.screen
  rest := by
    conv_lhs => rw [hd.builds.rest]
  controls := by
    obtain ⟨new, he, ha, hb⟩ := hd.builds.controls
    refine ⟨new ++ [c], by rw [he, List.append_assoc], ?_, fun d hdm => ?_⟩
    · refine List.pairwise_append.mpr ⟨ha, List.pairwise_singleton _ _, fun d hdm e hem h ho => ?_⟩
      rw [List.mem_singleton.mp hem]
      intro hoc
      obtain ⟨p, hp, rfl⟩ := List.mem_map.mp (howned h hoc)
      exact hd.unclaimed p hp d (by rw [he]; exact List.mem_append_right _ hdm) ho
    · rcases List.mem_append.mp hdm with hdm | hdm
      · exact hb d hdm
      · rw [List.mem_singleton.mp hdm]
        exact hc
  keyboard := hd.builds.keyboard

theorem veilPart_spec {store : Store} {c : Control} {p : Handle × WidgetContent} :
    (veilPart store c p).2 = { p.2 with hidden := (veilPart store c p).2.hidden } := by
  unfold veilPart
  split <;> rfl

/-- A drafted widget once the control is recorded: it is hidden as the control wants. -/
theorem Draft.veiled_content (hd : Draft s parts t) {c : Control} (hc : c.Drawn s.store parts)
    {p : Handle × WidgetContent} (hp : p ∈ parts) :
    ∃ w, (t.veiled c).widget? p.1 = some w ∧ w.content = (veilPart t.store c p).2 := by
  have hshown := (hd.veil hc.target_mem).content _ (List.mem_map_of_mem hp)
  rwa [veilPart_fst] at hshown

theorem Draft.built_fits (hd : Draft s parts t) {c : Control} (hc : c.Drawn s.store parts)
    (z : Int) : ({ c with zIndex := z } : Control).Fits (t.veiled c) where
  kind k hk := by
    obtain ⟨q, hq, rfl, hn⟩ := hc.owned k hk
    obtain ⟨w, hw, hwc⟩ := hd.veiled_content hc hq
    rw [veilPart_spec] at hwc
    have hwk : w.kind = q.2.kind := congrArg WidgetContent.kind hwc
    refine ⟨w.kind, by rw [Screen.kind?, hw, Option.map_some], ?_⟩
    rw [hwk, hn]
    simpa using hc.kind
  label ht hn := by
    obtain ⟨p, hp, hobj, -, -, hlabel⟩ := hc.shown
    obtain ⟨w, hw, hwc⟩ := hd.veiled_content hc hp
    rw [hobj] at hw
    rw [veilPart_spec] at hwc
    have hwk : w.kind = p.2.kind := congrArg WidgetContent.kind hwc
    show (t.veiled c).kind? c.obj = _
    rw [Screen.kind?, hw, Option.map_some, hwk, hlabel ht hn]
  bound := hc.bound
  page hk := absurd hk hc.kind

theorem Draft.built_visible (hd : Draft s parts t) {c : Control} (hc : c.Drawn s.store parts) :
    c.ShowsVisibility s.store (t.veiled c) := by
  obtain ⟨q, hq, hqt, -⟩ := hc.owned _ c.owns_target
  obtain ⟨w, hw, hwc⟩ := hd.veiled_content hc hq
  refine ⟨w, hqt ▸ hw, fun v hv => ?_⟩
  obtain ⟨r, hr, hrt, hrh⟩ := hc.visible (by rw [hv]; exact Option.some_ne_none v)
  have hqr : q = r := List.inj_on_of_nodup_map hd.nodup hq hr (hqt.trans hrt.symm)
  rw [hwc, veilPart, if_pos hqt, hqr, hrh, Bool.or_false, veils, hv, hd.builds.store]

theorem Draft.built (hd : Draft s parts t) {c : Control} (hc : c.Drawn s.store parts) (z : Int) :
    ({ c with zIndex := z } : Control).Built s (t.veiled c) := by
  obtain ⟨p, hp, hobj, htext, hvalue, -⟩ := hc.shown
  obtain ⟨w, hw, hwc⟩ := hd.veiled_content hc hp
  rw [hobj] at hw
  rw [veilPart_spec] at hwc
  exact
    { fresh := by
        intro k hk
        obtain ⟨q, hq, rfl, -⟩ := hc.owned k hk
        exact hd.fresh q hq
      fits := hd.built_fits hc z
      kind := hc.kind
      text := by
        refine ⟨w, hw, ?_⟩
        rw [hwc]
        exact htext
      value := by
        refine ⟨w, hw, ?_⟩
        rw [hwc]
        exact hvalue
      visibility := hd.built_visible hc
      slider := fun hk => (hc.slider hk).imp_right fun ⟨p, hp, hobj, hr⟩ => by
        obtain ⟨w, hw, hwc⟩ := hd.veiled_content hc hp
        rw [hobj] at hw
        rw [veilPart_spec] at hwc
        exact ⟨w, hw, hwc ▸ ⟨hr.low, hr.high, hr.value⟩⟩ }

theorem Draft.register (hd : Draft s parts t) {c : Control} (hc : c.Drawn s.store parts) :
    Builds s (t.register c).2 := by
  by_cases hid : c.id = ""
  · rw [Session.register, if_pos hid]
    exact hd.builds
  · obtain ⟨z, waiting, he⟩ := t.register_eq c hid
    have hmem {k : Handle} (hk : c.Owns k) : k ∈ parts.map (·.1) := by
      obtain ⟨p, hp, hpk, -⟩ := hc.owned k hk
      exact List.mem_map.mpr ⟨p, hp, hpk⟩
    rw [he]
    refine (hd.veil hc.target_mem).record (hd.built hc z) (fun k hk => ?_) waiting
    rw [map_veilPart]
    exact hmem hk

theorem Draft.registerWith (hd : Draft s parts t) {c : Control} (hc : c.Drawn s.store parts)
    (h : Handle) (kinds : List EventKind) {listener : Nat → Listener}
    (hl : ∀ i, listener i ≠ .keyboard) : Builds s (t.registerWith c h kinds listener) := by
  have hb := hd.register hc
  unfold Session.registerWith
  cases hr : t.register c with
  | mk i u =>
    rw [hr] at hb
    cases i with
    | none => exact hb
    | some i => exact hb.listen h kinds (hl i)

end ScreenMarkup.Session
