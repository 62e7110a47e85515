import ScreenMarkup.Proofs.Session.Integrity

/-!
# Who hears an event

At every point of every run a control that reports changes hears the events of
its widget, each of them once, and nobody else does. The events that close a
keyboard are heard by that keyboard alone.
-/

set_option autoImplicit false

namespace ScreenMarkup

theorem ControlKind.hears_reports {k : ControlKind} {i : Nat} {e : EventKind × Listener}
    (he : e ∈ k.hears i) : e.2.reports = true := by
  cases k <;> simp only [hears, List.mem_cons, List.not_mem_nil, or_false] at he
  case switch => rw [he, Listener.reports]
  case slider => rcases he with rfl | rfl <;> rfl
  case input => rcases he with rfl | rfl | rfl <;> rfl

namespace Session

variable {s t : Session} {h : Handle} {l : Listener} {c : Control} {i j : Nat}
  {kinds : List ControlKind} {k : Handle × Handle}

/-! ## Whom a listener serves -/

/-- No other listener can stand on a widget of the navigation. -/
theorem WellFormed.serves_navigating (hs : s.WellFormed) {kind : WidgetKind}
    (hk : s.screen.kind? h = some kind) (hn : kind.navigates = true) (hl : s.Serves h l) :
    l = .keyboard ∧ kind = .keyboard ∨ ∃ gi, l = .tileView gi ∧ kind = .tileView := by
  have hcontrol {i : Nat} {kinds : List ControlKind} (hc : s.HasControl i kinds h) :
      ControlKind.page ∈ kinds := by
    obtain ⟨c, hc, hkinds, ho⟩ := hc
    obtain ⟨k, hk', hpage⟩ := (hs.fits c (List.mem_of_getElem? hc)).kind _ ho
    obtain rfl : k = kind := Option.some.inj (hk'.symm.trans hk)
    exact hpage.mp hn ▸ hkinds
  cases l with
  | click i => exact absurd (hcontrol hl) (by decide)
  | switch i => exact absurd (hcontrol hl) (by decide)
  | slider i => exact absurd (hcontrol hl) (by decide)
  | input i => exact absurd (hcontrol hl) (by decide)
  | canvas i => exact absurd (hcontrol hl) (by decide)
  | keyboard =>
    obtain ⟨e, he, rfl⟩ := List.mem_map.mp hl
    exact .inl ⟨rfl, Option.some.inj (hk.symm.trans (hs.nav.keyboard e he))⟩
  | tileView gi =>
    obtain ⟨g, hg, rfl⟩ := List.mem_map.mp (List.mem_of_getElem? hl)
    exact .inr ⟨gi, rfl, Option.some.inj (hk.symm.trans (hs.nav.view g hg))⟩

/-- No widget belongs to controls at two positions. -/
theorem WellFormed.hasControl (hs : s.WellFormed) (hc : s.controls[i]? = some c) (ho : c.Owns h)
    (hj : s.HasControl j kinds h) : j = i ∧ c.kind ∈ kinds := by
  obtain ⟨d, hd, hkind, hod⟩ := hj
  obtain ⟨hi, rfl⟩ := List.getElem?_eq_some_iff.mp hc
  obtain ⟨hj, rfl⟩ := List.getElem?_eq_some_iff.mp hd
  have hapart := List.pairwise_iff_getElem.mp hs.apart
  rcases Nat.lt_trichotomy j i with hlt | rfl | hlt
  · exact absurd ho (hapart j i hj hi hlt h hod)
  · exact ⟨rfl, hkind⟩
  · exact absurd hod (hapart i j hi hj hlt h ho)

/-- Nothing else can listen to the widget of a control that reports changes. -/
theorem WellFormed.serves_reporting (hs : s.WellFormed) (hc : s.controls[i]? = some c)
    {e : EventKind × Listener} (he : e ∈ c.kind.hears i) (hl : s.Serves c.obj l) : l = e.2 := by
  obtain ⟨kind, hkind, hpage⟩ := (hs.fits c (List.mem_of_getElem? hc)).kind _ c.owns_obj
  have hnav : kind.navigates = false := by
    by_contra hn
    rw [hpage.mp (Bool.not_eq_false _ ▸ hn)] at he
    cases he
  have hcontrol {j : Nat} {kinds : List ControlKind} (hj : s.HasControl j kinds c.obj) :
      j = i ∧ c.kind ∈ kinds :=
    hs.hasControl hc c.owns_obj hj
  cases l with
  | click j =>
    obtain ⟨-, hk⟩ := hcontrol hl
    rcases List.mem_pair.mp hk with hk | hk <;> rw [hk] at he <;> cases he
  | switch j =>
    obtain ⟨rfl, hk⟩ := hcontrol hl
    rw [List.mem_singleton.mp hk] at he
    obtain rfl := List.mem_singleton.mp he
    rfl
  | slider j =>
    obtain ⟨rfl, hk⟩ := hcontrol hl
    rw [List.mem_singleton.mp hk] at he
    rcases List.mem_pair.mp he with rfl | rfl <;> rfl
  | input j =>
    obtain ⟨rfl, hk⟩ := hcontrol hl
    rw [List.mem_singleton.mp hk] at he
    simp only [ControlKind.hears, List.mem_cons, List.not_mem_nil, or_false] at he
    rcases he with rfl | rfl | rfl <;> rfl
  | canvas j =>
    obtain ⟨-, hk⟩ := hcontrol hl
    rw [List.mem_singleton.mp hk] at he
    cases he
  | keyboard =>
    obtain ⟨k, hk, he⟩ := List.mem_map.mp hl
    obtain rfl := Option.some.inj ((hs.nav.keyboard k hk).symm.trans (he ▸ hkind))
    cases hnav
  | tileView gi =>
    obtain ⟨g, hg, he⟩ := List.mem_map.mp (List.mem_of_getElem? hl)
    obtain rfl := Option.some.inj ((hs.nav.view g hg).symm.trans (he ▸ hkind))
    cases hnav

/-- The place of a widget that is there has no subscription of another widget. -/
theorem Anchored.latest (hs : s.Anchored) (hw : s.WellFormed) (hr : s.router.Sound)
    (hh : s.screen.isLive h = true) :
    ∀ q ∈ s.router.subscriptions, q.widget.slot = h.slot → q.widget = h := by
  intro q hq hslot
  obtain ⟨e, he⟩ := List.exists_mem_of_ne_nil _ (hr.nonempty q hq)
  exact Screen.eq_of_slot_eq (hs.live hw (hs.listener q hq e he)) hh hslot

/-! ## Attentive sessions -/

/-- What has to hear something hears it, and nothing else does. -/
structure Attentive (s : Session) : Prop where
  wellFormed : s.WellFormed
  anchored : s.Anchored
  router : s.router.Sound
  tuned : s.Tuned
  counted : ∀ h, s.screen.isLive h = true → h.generation ≠ 0

namespace Attentive

theorem grow (hs : s.Attentive) (hw : t.WellFormed) (ht : Grows s t) : t.Attentive where
  wellFormed := hw
  anchored := hs.anchored.grow ht
  router := ht.router.sound hs.router
  tuned := ht.tuned hs.tuned
  counted h hl := by
    rcases (ht.moves.screen hs.anchored.screen).fresh h hl with hold | hnew
    · exact hs.counted h hold
    · exact Nat.ne_of_gt (Nat.zero_lt_of_lt hnew)

/-- Nothing is there that could hear anything. -/
theorem bare (hw : s.WellFormed) (hc : s.controls = []) (hn : s.nav = {}) (hr : s.router = {})
    (hshape : s.screen.shape = Branch.leaf Handle.screen) : s.Attentive := by
  have hnone {P : Subscription → Prop} : ∀ q ∈ s.router.subscriptions, P q := by
    rw [hr]
    exact fun _ hq => nomatch hq
  have htuned : s.Tuned := by
    refine ⟨hnone, hnone, fun _ _ hi => ?_, fun _ hk => ?_⟩
    · rw [hc] at hi
      cases hi
    · rw [hn] at hk
      cases hk
  refine ⟨hw, ⟨hw.screen.toSound, hn ▸ Navigation.Anchored.empty _, hnone⟩, ⟨?_, hnone⟩, htuned,
    fun h hl => ?_⟩
  · rw [hr]
    exact List.nodup_nil
  · rw [← hw.screen.live, hshape] at hl
    rw [List.mem_singleton.mp hl]
    exact Nat.one_ne_zero

theorem new (config : Config) : (Session.new config).Attentive :=
  bare (wellFormed_new config) rfl rfl rfl rfl

theorem perform (hs : s.Attentive) (o : Operation) : (o.perform s).Attentive := by
  have hw := hs.wellFormed.perform o
  cases ho : o.clears with
  | false => exact hs.grow hw (perform_grows s ho)
  | true =>
    obtain ⟨hscreen, hnav, hrouter⟩ := perform_clears (s := s) ho
    have hcontrols : (o.perform s).controls = [] := by
      cases o <;> first | rfl | cases ho
    exact bare hw hcontrols hnav hrouter (hscreen ▸ hs.anchored.screen.clean_shape)

theorem after (hs : s.Attentive) (os : List Operation) : (s.after os).Attentive := by
  induction os generalizing s with
  | nil => exact hs
  | cons o os ih => exact ih (hs.perform o)

/-! ## Controls and keyboards -/

/-- The events of a control that reports changes are its own. -/
theorem listeners (hs : s.Attentive) (hc : s.controls[i]? = some c) {e : EventKind × Listener}
    (he : e ∈ c.kind.hears i) : s.router.listeners c.obj e.1 = [e.2] := by
  have hlive := (hs.wellFormed.fits c (List.mem_of_getElem? hc)).live c.owns_obj
  refine hs.router.listeners_eq hs.tuned.once (ControlKind.hears_reports he)
    (hs.tuned.control i c hc (hs.counted _ hlive) e he)
    (hs.anchored.latest hs.wellFormed hs.router hlive) fun m hm => ?_
  obtain ⟨q, hq, hw, f, hf, rfl⟩ := Router.mem_listeners hm
  exact hs.wellFormed.serves_reporting hc he (hw ▸ hs.anchored.listener q hq f hf)

/-- A keyboard that is closed hears it, and nobody else does. -/
theorem keyboard_listeners (hs : s.Attentive) (hk : k ∈ s.nav.keyboards) {kind : EventKind}
    (hkind : kind ∈ closing) : ∃ ls, s.router.listeners k.2 kind = .keyboard :: ls ∧
      ∀ l ∈ ls, l = .keyboard := by
  have hkeyboard := hs.wellFormed.nav.keyboard k hk
  have hlive := Screen.isLive_of_kind? hkeyboard
  refine hs.router.listeners_alone (hs.tuned.keyboard k hk (hs.counted _ hlive) kind hkind)
    (hs.anchored.latest hs.wellFormed hs.router hlive) fun l hl => ?_
  obtain ⟨q, hq, hw, e, he, rfl⟩ := Router.mem_listeners hl
  rcases hs.wellFormed.serves_navigating hkeyboard rfl (hw ▸ hs.anchored.listener q hq e he)
    with ⟨he, -⟩ | ⟨gi, -, hview⟩
  · exact he
  · cases hview

end Attentive

end Session
end ScreenMarkup
