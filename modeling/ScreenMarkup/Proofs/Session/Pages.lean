import ScreenMarkup.Proofs.Session.Operations

/-!
# One page at a time

From the first page that is shown, exactly one page or group is seen, through
links, swipes, keyboards and changes of variables. A document whose first
page cannot be found leaves everything on the screen.
-/

set_option autoImplicit false

namespace ScreenMarkup.Session

open Navigation (Displayed)

variable {s t : Session}

/-! ## After a show -/

theorem showPage_displayed (hs : s.WellFormed) {path : String}
    (hshow : s.showPage path = (.ok (), t)) :
    t.WellFormed ∧ t.nav.Exclusive t.screen ∧
      ∀ k ∈ t.nav.keyboards, t.screen.isHidden k.2 = true := by
  rcases showPage_spec hs path with ⟨-, e, he⟩ | ⟨-, m, v, hd, he⟩
  · rw [he] at hshow
    cases hshow
  · rw [he] at hshow
    cases hshow
    exact ⟨hs.displayed hd, hd.exclusive, hd.keyboards⟩

theorem showFirst_cases (s : Session) :
    s.showFirst = s ∨ ∃ path, s.showPage path = (.ok (), s.showFirst) := by
  unfold showFirst
  extract_lets first fallback
  have hfallback : fallback = s ∨ ∃ path, s.showPage path = (.ok (), fallback) := by
    unfold fallback
    cases first with
    | none => exact .inl rfl
    | some path => exact (showPage_cases s path).imp id fun h => ⟨path, h⟩
  split
  · exact hfallback
  · split
    · next t he => exact .inr ⟨_, he⟩
    · exact hfallback

/-- The first page is displayed, if there is one. -/
theorem showFirst_display (s : Session) : s.showFirst = s ∨
    ∃ path m v, s.nav.display s.screen path = .ok (m, v) ∧
      s.showFirst = { s with nav := m, screen := v } := by
  rcases showFirst_cases s with he | ⟨path, hshow⟩
  · exact .inl he
  · unfold showPage at hshow
    cases hd : s.nav.display s.screen path with
    | error e =>
      rw [hd] at hshow
      cases congrArg Prod.fst hshow
    | ok r =>
      rw [hd] at hshow
      exact .inr ⟨path, r.1, r.2, hd, (congrArg Prod.snd hshow).symm⟩

/-- The navigation names the widget as the one it shows: of a page or of a group, not of both. -/
theorem shown?_cases {n : Navigation} {h : Handle} (hn : n.shown? = some h) :
    (∃ i p, n.currentPage = some i ∧ n.currentGroup = none ∧ n.pages[i]? = some p ∧
      p.widget = h) ∨
    ∃ i g, n.currentPage = none ∧ n.currentGroup = some i ∧ n.groups[i]? = some g ∧
      g.view = h := by
  unfold Navigation.shown? at hn
  split at hn
  · next i hp hg =>
    obtain ⟨p, hi, hw⟩ := Option.map_eq_some_iff.mp hn
    exact .inl ⟨i, p, hp, hg, hi, hw⟩
  · next i hp hg =>
    obtain ⟨g, hi, hv⟩ := Option.map_eq_some_iff.mp hn
    exact .inr ⟨i, g, hp, hg, hi, hv⟩
  · cases hn

/-- Whatever was done before, a page is shown by its path: on request, by a link, or first of a
document. Right after it no keyboard is seen. From then on, exactly one page or group is, the
navigation names it, and the dots of a group are seen when the group is. -/
theorem one_target_shown (config : Config) (history : List Operation) :
    let s := (Session.new config).after history
    (∀ href, (s.navigate href).2 = s ∨ ∃ path, s.showPage path = (.ok (), (s.navigate href).2)) ∧
    (∀ markup, s.render markup = s.prepare markup ∨
      ∃ path, (s.prepare markup).showPage path = (.ok (), s.render markup)) ∧
    ∀ r path t, (r = s ∨ ∃ markup, r = s.prepare markup) → r.showPage path = (.ok (), t) →
      (∀ k ∈ t.nav.keyboards, t.screen.isHidden k.2 = true) ∧
      ∀ run : List Operation, (∀ o ∈ run, o.keepsPages = true) →
        let u := t.after run
        (∃ h, (u.nav.targets.filter fun k => !u.screen.isHidden k) = [h] ∧
          ((∃ i p, u.nav.currentPage = some i ∧ u.nav.currentGroup = none ∧
            u.nav.pages[i]? = some p ∧ p.widget = h) ∨
          ∃ i g, u.nav.currentPage = none ∧ u.nav.currentGroup = some i ∧
            u.nav.groups[i]? = some g ∧ g.view = h)) ∧
        ∀ g ∈ u.nav.groups, ∀ d, g.dots = some d →
          u.screen.isHidden d = u.screen.isHidden g.view := by
  intro s
  have hs : s.WellFormed := (wellFormed_new config).after history
  refine ⟨navigate_cases s, fun markup => showFirst_cases (s.prepare markup), ?_⟩
  intro r path t hr hshow
  have hrw : r.WellFormed := by
    rcases hr with rfl | ⟨markup, rfl⟩
    · exact hs
    · exact hs.prepare markup
  obtain ⟨ht, hexclusive, hkeyboards⟩ := showPage_displayed hrw hshow
  refine ⟨hkeyboards, fun run hrun => ?_⟩
  intro u
  have hu := (after_keeps ht hrun).exclusive hexclusive
  obtain ⟨h, hshown, honly⟩ := hu.only
  exact ⟨⟨h, honly, shown?_cases hshown⟩, hu.dots⟩

/-- A link to the only group, from a page. -/
theorem one_target_shown_after_link :
    let s := (Session.new {}).after
      [.render "<page id='a'/><group id='g'><page id='b'/></group>"]
    let u := (s.showPage "a").2.after [.assign "x" "1", .navigate "/g"]
    s.showPage "a" = (.ok (), (s.showPage "a").2) ∧
      ∃ h, (u.nav.targets.filter fun k => !u.screen.isHidden k) = [h] := by
  have hok : (((Session.new {}).after
      [.render "<page id='a'/><group id='g'><page id='b'/></group>"]).showPage "a").1 = .ok () := by
    decide +kernel
  intro s u
  have hshow : s.showPage "a" = (.ok (), (s.showPage "a").2) := Prod.ext hok rfl
  obtain ⟨-, -, hall⟩ := one_target_shown {}
    [.render "<page id='a'/><group id='g'><page id='b'/></group>"]
  obtain ⟨⟨h, honly, -⟩, -⟩ := (hall s "a" _ (.inl rfl) hshow).2
    [.assign "x" "1", .navigate "/g"] (by decide)
  exact ⟨hshow, h, honly⟩

/-! ## The first page -/

/-- On a cleared screen a document leaves at most one page or group on the screen exactly when
it has no more than one, or when one of the paths that it may open with leads somewhere. -/
theorem render_shows_at_most_one_iff (config : Config) (history : List Operation)
    (markup : String) :
    let s := ((Session.new config).after history).clear
    let t := s.render markup
    (t.nav.targets.filter fun k => !t.screen.isHidden k).length ≤ 1 ↔
      (s.prepare markup).nav.targets.length ≤ 1 ∨
        ∃ path ∈ (s.prepare markup).openings, ∃ goal,
          (s.prepare markup).nav.goal path = .ok goal := by
  intro s t
  have hs : s.WellFormed := ((wellFormed_new config).after history).clear
  have hprepared := hs.prepare markup
  have hunshown := prepare_unshown hs rfl markup
  rcases showFirst_spec hprepared with ⟨he, hnone⟩ | ⟨hsome, m, v, hd, he⟩
  · have ht : t = s.prepare markup := he
    have hall : (t.nav.targets.filter fun k => !t.screen.isHidden k) = t.nav.targets := by
      rw [ht, List.filter_eq_self]
      intro k hk
      rw [hunshown.visible k (List.mem_append_left _ hk)]
      rfl
    rw [hall, ht]
    constructor
    · exact .inl
    · rintro (hle | ⟨path, hp, goal, hg⟩)
      · exact hle
      · obtain ⟨e, hne⟩ := hnone path hp
        rw [hg] at hne
        cases hne
  · have ht : t = { s.prepare markup with nav := m, screen := v } := he
    obtain ⟨h, -, honly⟩ := hd.exclusive.only
    rw [ht]
    exact iff_of_true (by rw [honly]; exact Nat.le_refl 1) (.inr hsome)

/-- The group leads to a page it does not have, so nothing is shown first, and the page and the
group stay on the screen together. -/
theorem not_render_shows_at_most_one :
    ¬ ∀ (config : Config) (history : List Operation) (markup : String),
      let t := ((Session.new config).after history).clear.render markup
      (t.nav.targets.filter fun k => !t.screen.isHidden k).length ≤ 1 := by
  intro h
  have hone := h {} [] "<group id='g' default='zzz'><page id='a'/></group><page id='p'/>"
  exact absurd hone (by decide +kernel)

end ScreenMarkup.Session
