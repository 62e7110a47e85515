import ScreenMarkup.Proofs.Session.Pages
import ScreenMarkup.Proofs.Session.StackingOrder

/-!
# Where the elements of a document lie

A written coordinate beats the rules in its axis. In the other axis the rules
keep what they give, but for elements that are placed like text: as soon as one
of their coordinates is written, the other one counts as zero. Neither stacking
nor showing a page moves anything.
-/

set_option autoImplicit false

namespace ScreenMarkup

/-! ## Showing a page -/

namespace Navigation

variable {n m : Navigation} {s t : Screen} {h : Handle} {p : Offset}

theorem setHiddens_lies (hl : s.Lies h p) (es : List (Handle × Bool)) :
    (s.setHiddens es).Lies h p :=
  hl.foldl (fun _ e hs => hs.setHidden e.1 e.2) es

theorem highlight_lies (hl : s.Lies h p) (g : PageGroup) (i : Nat) :
    (g.highlight s i).Lies h p := by
  unfold PageGroup.highlight
  split
  · exact hl.foldl (fun _ _ hs => hs.applyStyle _ _) _
  · exact hl

theorem showTile_lies (hl : s.Lies h p) (n : Navigation) (gi pi : Nat) :
    (n.showTile s gi pi).2.Lies h p := by
  unfold showTile
  extract_lets s₁ s₂
  have hl₁ : s₁.Lies h p := by
    unfold s₁
    rw [hideKeyboards_eq, hideGroups_eq, hidePages_eq]
    exact setHiddens_lies (setHiddens_lies (setHiddens_lies hl _) _) _
  show s₂.Lies h p
  unfold s₂
  split
  · refine highlight_lies ?_ _ pi
    split
    · exact hl₁.setActiveTile _ _
    · exact hl₁
  · exact hl₁

/-- To show something moves nothing. -/
theorem display_lies {path : String} (hl : s.Lies h p) (hd : n.display s path = .ok (m, t)) :
    t.Lies h p := by
  unfold display at hd
  cases hg : n.goal path with
  | error e =>
    rw [hg] at hd
    cases hd
  | ok goal =>
    rw [hg] at hd
    obtain rfl : (n.showGoal s goal).2 = t := congrArg Prod.snd (Except.ok.inj hd)
    cases goal with
    | page i =>
      show (n.showPage s i).2.Lies h p
      rw [showPage, hidePages_eq, hideKeyboards_eq, hideGroups_eq]
      exact setHiddens_lies (setHiddens_lies (setHiddens_lies hl _) _) _
    | tile gi pi => exact showTile_lies hl n gi pi

end Navigation

namespace Session

variable {s : Session} {q : Site}

theorem showPage_lands (hq : q.Lands s) (path : String) : q.Lands (s.showPage path).2 := by
  unfold Session.showPage
  cases hd : s.nav.display s.screen path with
  | error e => exact hq
  | ok shown =>
    obtain ⟨m, v⟩ := shown
    obtain ⟨id, hgoes, p, hl, hp⟩ := hq
    exact ⟨id, hgoes, p, Navigation.display_lies hl hd, hp⟩

/-- In a rendered document every element that rules are applied to and nothing aligns lies where it
was built. -/
theorem render_lands (hs : s.WellFormed) (hz : s.Waits) (markup : String) (hq : q ∈ s.sites markup)
    (hk : q.kind.isRuled = true) (hu : q.Unaligned) : q.Lands (s.render markup) := by
  have hbuilt := (sites_fill hs hz markup).lands q hq hk hu
  obtain ⟨hwell, -⟩ := render_built hs markup
  have hprepared : q.Lands (s.prepare markup) := by
    rw [prepare_eq]
    exact hbuilt.keep ((hwell.screen.extends_stack _).2 q.widget)
      ⟨[], (List.append_nil _).symm, by simp⟩ rfl rfl rfl
  rw [render_eq]
  rcases showFirst_cases (s.prepare markup) with he | ⟨path, he⟩
  · rw [he]
    exact hprepared
  · have hshown := showPage_lands hprepared path
    rw [he] at hshown
    exact hshown

end Session

/-! ## Coordinates -/

namespace Site

variable (q : Site) (s : Session) (id : String) (a : Axis)

/-- The written coordinate, or else what the rules give. -/
def wantedPosition : Int := (q.written s a).getD ((q.ruledPosition s id a).getD 0)

/-- Only text loses what the rules give, and only if the other coordinate alone is written. -/
theorem coordinate_eq_iff :
    q.coordinate s id a = q.wantedPosition s id a ↔ q.kind.isText = false ∨
      q.written s a ≠ none ∨ q.written s a.other = none ∨ (q.ruledPosition s id a).getD 0 = 0 := by
  unfold coordinate wantedPosition
  cases hwritten : q.written s a with
  | some n => simp
  | none =>
    cases hother : q.written s a.other with
    | none => simp
    | some n => cases q.kind.isText <;> simp [eq_comm]

theorem coordinate_eq_or : q.coordinate s id a = q.wantedPosition s id a ∨
    q.coordinate s id a = 0 := by
  unfold coordinate wantedPosition
  cases q.written s a with
  | some n => exact .inl rfl
  | none =>
    split
    · exact .inr rfl
    · exact .inl rfl

end Site

namespace Session

/-- On a cleared screen, the coordinate of an element that nothing aligns is the written one or else
that of the rules, exactly if the element is not placed like text, or the coordinate is written, or
the other one is not, or the rules give zero. If it is not, it is zero. The elements are all that
were built: a widget that was not laid out before is that of an element or stands inside of one. -/
theorem position_wins_iff (config : Config) (history : List Operation) (markup : String) :
    let s := ((Session.new config).after history).clear
    let t := s.render markup
    (∀ h, ∀ k ∈ t.screen.children h, (s.layOut markup).1.screen.isLive k = true ∨
      (∃ q ∈ s.sites markup, q.parent = h ∧ q.widget = k) ∨
      ∃ q ∈ s.sites markup, q.widget = h) ∧
    ∀ q ∈ s.sites markup, q.kind.isRuled = true → q.Unaligned →
      t.screen.isLive q.widget = true ∧ ∀ a : Axis,
        let place := a.part (t.screen.rect q.widget).origin
        let wanted := q.wantedPosition t (q.name t) a
        (place = wanted ↔ q.kind.isText = false ∨ q.written t a ≠ none ∨
          q.written t a.other = none ∨ (q.ruledPosition t (q.name t) a).getD 0 = 0) ∧
        (place = wanted ∨ place = 0) := by
  intro s t
  have hs : s.WellFormed := ((wellFormed_new config).after history).clear
  have hwaits : s.Waits := fun _ _ => rfl
  refine ⟨render_covered hs hwaits markup, fun q hq hk hu => ?_⟩
  obtain ⟨id, hgoes, p, hl, hp⟩ := render_lands hs hwaits markup hq hk hu
  have hname : q.name t = id := hgoes.name (hs.render markup)
  refine ⟨hl.isLive, fun a => ?_⟩
  rw [hl.origin, hp a, hname]
  exact ⟨q.coordinate_eq_iff t id a, q.coordinate_eq_or t id a⟩

/-- A label with one written coordinate, in an axis in which the rules give another. -/
theorem position_wins_of_label :
    let s := ((Session.new {}).after []).clear
    let markup := "<app><style>.p \x7b left: 100; top: 80; \x7d</style>" ++
      "<ui><label class='p' y='6'>x</label></ui></app>"
    let t := s.render markup
    ∃ q ∈ s.sites markup, q.kind = .label ∧ q.ruledPosition t (q.name t) .down = some 80 ∧
      (t.screen.rect q.widget).y = 6 := by
  intro s markup t
  have hfacts : ∃ q ∈ s.sites markup, q.kind = .label ∧
      (q.element.attr "align" = "" ∧ q.element.attr "valign" = "") ∧
      q.ruledPosition t (q.name t) .down = some 80 ∧ q.written t .down = some 6 := by
    decide +kernel
  obtain ⟨q, hq, hkind, hunaligned, hruled, hwritten⟩ := hfacts
  obtain ⟨-, hall⟩ := position_wins_iff {} [] markup
  obtain ⟨-, hplace⟩ := hall q hq (by rw [hkind]; rfl) hunaligned
  have hwins := (hplace .down).1.mpr (.inr (.inl (by rw [hwritten]; decide)))
  rw [Site.wantedPosition, hwritten] at hwins
  exact ⟨q, hq, hkind, hruled, hwins⟩

/-- A label with one written coordinate forgets what the rules give in the other axis. -/
theorem not_position_wins :
    ¬ ∀ (config : Config) (history : List Operation) (markup : String),
      let s := ((Session.new config).after history).clear
      let t := s.render markup
      ∀ q ∈ s.sites markup, q.kind ∈ [.label, .button, .switch, .slider, .input] → q.Unaligned →
        ∀ a : Axis, a.part (t.screen.rect q.widget).origin = q.wantedPosition t (q.name t) a := by
  intro hall
  let s := ((Session.new {}).after []).clear
  let markup := "<app><style>.p \x7b left: 100; top: 80; \x7d</style>" ++
    "<ui><label class='p' y='6'>x</label></ui></app>"
  let t := s.render markup
  have hsite : ∃ q ∈ s.sites markup, q.kind = .label ∧
      (q.element.attr "align" = "" ∧ q.element.attr "valign" = "") ∧
      Axis.across.part (t.screen.rect q.widget).origin ≠
        q.wantedPosition t (q.name t) .across := by
    decide +kernel
  obtain ⟨q, hq, hkind, hunaligned, hne⟩ := hsite
  exact hne (hall {} [] markup q hq (by rw [hkind]; decide) hunaligned .across)

end Session
end ScreenMarkup
