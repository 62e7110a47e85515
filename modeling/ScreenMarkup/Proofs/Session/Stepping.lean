import ScreenMarkup.Proofs.Session.Reaching

/-!
# Stepping from page to page

A step finds the next or the previous page by its position, and then shows it
by its id. It gets there exactly when the id leads to that page: no group and
no earlier page has the id, and it is no path. Beyond the first and the last
page there is no step.
-/

set_option autoImplicit false

namespace ScreenMarkup

namespace Navigation

variable {n : Navigation} {s : Screen} {p : Page} {i j k : Nat} {path : String}

/-! ## Ids that lead to a page -/

/-- The id of the page at a position leads to that page. -/
def Leads (n : Navigation) (j : Nat) : Prop :=
  ∃ p, n.pages[j]? = some p ∧ '/' ∉ p.id.toList ∧ n.Finds (.page p)

theorem leads_iff (hp : n.pages[j]? = some p) : n.Leads j ↔ '/' ∉ p.id.toList ∧
    (∀ g ∈ n.groups, g.id ≠ p.id) ∧ n.pages.find? (·.id = p.id) = some p := by
  constructor
  · rintro ⟨q, hq, hplain⟩
    obtain rfl : p = q := Option.some.inj (hp.symm.trans hq)
    exact hplain
  · exact fun h => ⟨p, hp, h⟩

instance (n : Navigation) (j : Nat) : Decidable (n.Leads j) :=
  match hp : n.pages[j]? with
  | none => .isFalse fun ⟨_, hq, _⟩ => Option.some_ne_none _ (hq.symm.trans hp)
  | some _ => decidable_of_iff' _ (leads_iff hp)

theorem tileGoal_ne_page (group page : String) : n.tileGoal group page ≠ .ok (.page j) := by
  unfold tileGoal
  split
  · exact nofun
  · split <;> exact nofun

/-- Whatever leads to a page, the page is the first with its id, and the id is no path. -/
theorem direct_page (hg : n.direct path = .ok (.page j)) :
    ∃ p, n.pages[j]? = some p ∧ '/' ∉ p.id.toList ∧ n.pages.find? (·.id = p.id) = some p := by
  unfold direct at hg
  split at hg
  · exact absurd hg (tileGoal_ne_page _ _)
  next hsplit =>
  unfold pageGoal at hg
  split at hg
  · next hi =>
    cases hg
    obtain ⟨hlt, hid, -⟩ := List.findIdx?_eq_some_iff_getElem.mp hi
    replace hid := of_decide_eq_true hid
    refine ⟨n.pages[j], List.getElem?_eq_getElem hlt, hid ▸ splitPath?_eq_none.mp hsplit, ?_⟩
    rw [List.find?_eq_bind_findIdx?_getElem?, hid]
    exact Option.bind_eq_some_iff.mpr ⟨j, hi, List.getElem?_eq_getElem hlt⟩
  · cases hg

theorem follow_page (hg : n.follow k path = .ok (.page j)) :
    ∃ p, n.pages[j]? = some p ∧ '/' ∉ p.id.toList ∧ n.pages.find? (·.id = p.id) = some p := by
  induction k generalizing path with
  | zero => exact direct_page hg
  | succ k ih =>
    unfold follow at hg
    split at hg
    · exact ih hg
    · exact direct_page hg

/-- A named page is shown by its id exactly if the id leads to it. -/
theorem goal_page_iff (hn : n.WellFormed s) (hp : n.pages[j]? = some p) (hid : p.id ≠ "") :
    n.goal p.id = .ok (.page j) ↔ n.Leads j := by
  rw [leads_iff hp]
  constructor
  · intro hg
    obtain ⟨q, hq, hplain, hfirst⟩ := follow_page hg
    obtain rfl : p = q := Option.some.inj (hp.symm.trans hq)
    refine ⟨hplain, fun g hg' he => ?_, hfirst⟩
    -- the first group with the id leads to its landing page, which is a tile
    have hsome : (n.groups.find? fun g => decide (g.id = p.id)).isSome = true :=
      List.find?_isSome.mpr ⟨g, hg', decide_eq_true he⟩
    obtain ⟨k, hk⟩ := Option.isSome_iff_exists.mp hsome
    have hkid : k.id = p.id := by simpa using List.find?_some hk
    rw [← hkid] at hplain hid hk hg
    rw [goal_group hplain hid hk] at hg
    exact tileGoal_ne_page _ _ hg
  · rintro ⟨hplain, hfinds⟩
    obtain ⟨i, hi, hg⟩ := goal_page (n := n) hplain hfinds
    rwa [hn.page_unique hi hp rfl] at hg

/-! ## Steps -/

variable {delta : Int}

/-- A step to a position shows the page there by its id. -/
theorem step_to (hi : n.currentPage = some i) (hj : (i : Int) + delta = j)
    (hp : n.pages[j]? = some p) : n.step s delta = n.display s p.id := by
  have hnext : (n.currentPage.map Int.ofNat).getD (-1) + delta = j := by
    rw [hi]
    exact hj
  rw [step, hnext, if_neg (Int.not_lt.mpr (Int.natCast_nonneg j)), Int.toNat_natCast, hp]

theorem step_beyond (hi : n.currentPage = some i)
    (hd : (i : Int) + delta < 0 ∨ n.pages.length ≤ (i : Int) + delta) :
    n.step s delta = .ok (n, s) := by
  have hnext : (n.currentPage.map Int.ofNat).getD (-1) + delta = i + delta := by
    rw [hi]
    rfl
  rw [step, hnext]
  split
  · rfl
  next hle =>
  have hnone : n.pages[((i : Int) + delta).toNat]? = none := List.getElem?_eq_none (by omega)
  rw [hnone]

end Navigation

namespace Session

variable {s t u : Session} {p : Page} {i j : Nat} {href : String}

/-! ## Named pages -/

/-- No page has an empty id. -/
def Named (s : Session) : Prop := ∀ p ∈ s.nav.pages, p.id ≠ ""

theorem Named.congr (hs : s.Named) (hp : t.nav.pages = s.nav.pages) : t.Named := by
  rw [Named, hp]
  exact hs

theorem Named.prepare (hs : s.Named) (hw : s.WellFormed) (markup : String) :
    (s.prepare markup).Named := by
  have hgroup (s : Session) (group : Element) (hw : s.WellFormed) (hs : s.Named) :
      (s.renderGroup group).1.Named := by
    rcases renderGroup_groups hw group with ⟨-, he⟩ | ⟨g, hg⟩
    · rw [he]
      exact hs
    · have hpages : (s.renderGroup group).1.nav.pages = s.nav.pages := congrArg (·.pages) hg.nav
      exact hs.congr hpages
  have hpage (s : Session) (page : Element) (hw : s.WellFormed) (hs : s.Named) :
      (s.renderPage page).1.Named := by
    rcases renderPage_pages hw page with he | ⟨h, hp⟩
    · rw [he]
      exact hs
    · intro q hq
      rw [hp.nav] at hq
      rcases List.mem_append.mp hq with hq | hq
      · exact hs q hq
      · rw [List.mem_singleton.mp hq]
        exact hp.named
  obtain ⟨head, store, sheet, u, v, -, -, hlaid, hb, he⟩ := prepare_keeps
    (P := fun s t => s.Named → t.Named) (fun _ => id) (fun _ _ _ h₁ h₂ hs => h₂ (h₁ hs))
    hgroup hpage hw markup
  rw [he]
  exact (hlaid (hs.congr rfl)).congr (congrArg Navigation.pages hb.nav)

theorem Named.perform (hs : s.Named) (hw : s.WellFormed) (o : Operation) : (o.perform s).Named := by
  by_cases ho : o.keepsPages = true
  · exact hs.congr (perform_keeps hw ho).pages
  · cases o with
    | render markup =>
      show (s.prepare markup).showFirst.Named
      have hprepared := hs.prepare hw markup
      rcases showFirst_cases (s.prepare markup) with he | ⟨path, he⟩
      · rwa [he]
      · have hkeeps := showPage_keeps (hw.prepare markup) path
        rw [he] at hkeeps
        exact hprepared.congr hkeeps.pages
    | clear => exact fun _ hp => nomatch hp
    | init => exact fun _ hp => nomatch hp
    | setAttr id attr value =>
      refine hs.congr ?_
      show (s.setAttr id attr value).2.nav.pages = s.nav.pages
      unfold setAttr
      split
      · rfl
      · split <;> rfl
    | _ => exact absurd rfl ho

theorem Named.after (hs : s.Named) (hw : s.WellFormed) (os : List Operation) :
    (s.after os).Named := by
  induction os generalizing s with
  | nil => exact hs
  | cons o os ih => exact ih (hs.perform hw o) (hw.perform o)

theorem named_new (config : Config) : (new config).Named := fun _ hp => nomatch hp

/-! ## Links to the neighbours -/

/-- To follow the link brings the page at a position to the screen, and nothing else. -/
def Brings (s : Session) (href : String) (j : Nat) : Prop :=
  ∃ u p, s.navigate href = (.ok (), u) ∧ u.nav.currentPage = some j ∧ s.nav.pages[j]? = some p ∧
    (u.nav.targets.filter fun h => !u.screen.isHidden h) = [p.widget]

/-- A step shows the next page by its id. -/
theorem navigate_next (hi : s.nav.currentPage = some i) (hp : s.nav.pages[i + 1]? = some p) :
    s.navigate "/next" = s.showPage p.id := by
  show s.navigated (s.nav.step s.screen 1) = _
  rw [Navigation.step_to hi (j := i + 1) rfl hp]
  rfl

/-- A step back shows the previous page by its id. -/
theorem navigate_back (hl : href ∈ ["/prev", "/back"]) (hi : s.nav.currentPage = some (i + 1))
    (hp : s.nav.pages[i]? = some p) : s.navigate href = s.showPage p.id := by
  have hstep : s.navigate href = s.navigated (s.nav.step s.screen (-1)) := by
    rcases List.mem_pair.mp hl with rfl | rfl <;> rfl
  have hback : ((i + 1 : Nat) : Int) + -1 = i := by omega
  rw [hstep, Navigation.step_to hi hback hp]
  rfl

theorem navigate_next_last (hi : s.nav.currentPage = some i)
    (hlast : s.nav.pages.length ≤ i + 1) : s.navigate "/next" = (.ok (), s) := by
  show s.navigated (s.nav.step s.screen 1) = _
  rw [Navigation.step_beyond hi (.inr (by omega))]
  rfl

theorem navigate_back_first (hl : href ∈ ["/prev", "/back"]) (hi : s.nav.currentPage = some 0) :
    s.navigate href = (.ok (), s) := by
  have hstep : s.navigate href = s.navigated (s.nav.step s.screen (-1)) := by
    rcases List.mem_pair.mp hl with rfl | rfl <;> rfl
  rw [hstep, Navigation.step_beyond hi (.inl (by decide))]
  rfl

/-! ## Ids and positions -/

section

variable (hs : s.WellFormed) (hn : s.Named) (hp : s.nav.pages[j]? = some p)
  (he : s.navigate href = s.showPage p.id)

include hs hn hp he

/-- A page that its id leads to is shown by it. -/
theorem navigate_of_leads (hl : s.nav.Leads j) : s.navigate href = (.ok (), { s with
    nav := (s.nav.showPage s.screen j).1
    screen := (s.nav.showPage s.screen j).2 }) :=
  have hgoal := (Navigation.goal_page_iff hs.nav hp (hn p (List.mem_of_getElem? hp))).mpr hl
  he.trans (showPage_goal hgoal).2

theorem leads_of_navigate (hu : s.navigate href = (.ok (), u))
    (hj : u.nav.currentPage = some j) : s.nav.Leads j := by
  rw [← Navigation.goal_page_iff hs.nav hp (hn p (List.mem_of_getElem? hp))]
  rw [he] at hu
  cases hg : s.nav.goal p.id with
  | error e =>
    rw [showPage_error hg] at hu
    cases hu
  | ok goal =>
    rw [(showPage_goal hg).2] at hu
    cases hu
    cases goal with
    | page i =>
      obtain rfl : i = j := Option.some.inj hj
      rfl
    | tile gi pi => cases hj

theorem brings_iff : s.Brings href j ↔ s.nav.Leads j := by
  constructor
  · rintro ⟨u, -, hu, hj, -⟩
    exact leads_of_navigate hs hn hp he hu hj
  · intro hl
    obtain ⟨hlt, -⟩ := List.getElem?_eq_some_iff.mp hp
    obtain ⟨h, hh, honly⟩ := (Navigation.showPage_spec hs.screen hs.nav hlt).exclusive.only
    have hshown := Navigation.shown?_showPage (s := s.screen) hp
    obtain rfl : p.widget = h := Option.some.inj (hshown.symm.trans hh)
    exact ⟨_, p, navigate_of_leads hs hn hp he hl, rfl, hp, honly⟩

end

/-- To the next page and back again: each of the two steps gets there if the id of its page leads to
it. -/
theorem round_trip_iff (hs : s.WellFormed) (hn : s.Named) (hi : s.nav.currentPage = some i)
    (hlt : i + 1 < s.nav.pages.length) :
    (∃ u, s.navigate "/next" = (.ok (), u) ∧ u.nav.currentPage = some (i + 1) ∧
      u.Brings "/prev" i) ↔ s.nav.Leads (i + 1) ∧ s.nav.Leads i := by
  have hnext := List.getElem?_eq_getElem hlt
  have hprev := List.getElem?_eq_getElem (Nat.lt_of_succ_lt hlt)
  have hforth := navigate_next hi hnext
  -- the pages and the groups are still the same on the next page
  have hback (hl : s.nav.Leads (i + 1)) {u : Session} (hu : s.navigate "/next" = (.ok (), u)) :
      u.nav.currentPage = some (i + 1) ∧ (u.Brings "/prev" i ↔ s.nav.Leads i) := by
    have hw := hs.perform (.navigate "/next")
    have hm := hn.perform hs (.navigate "/next")
    rw [Operation.perform, hu] at hw hm
    rw [navigate_of_leads hs hn hnext hforth hl] at hu
    cases hu
    exact ⟨rfl, brings_iff hw hm hprev (navigate_back List.mem_cons_self rfl hprev)⟩
  constructor
  · rintro ⟨u, hu, hcurrent, hbrings⟩
    have hl := leads_of_navigate hs hn hnext hforth hu hcurrent
    exact ⟨hl, (hback hl hu).2.mp hbrings⟩
  · rintro ⟨hl, hl'⟩
    have hu := navigate_of_leads hs hn hnext hforth hl
    exact ⟨_, hu, (hback hl hu).1, (hback hl hu).2.mpr hl'⟩

/-- Whatever was done before: where a page is shown, the links to its neighbours bring them to the
screen exactly if their ids lead to them, and so there and back again. At the ends the links change
nothing. -/
theorem steps_to_neighbours_iff (config : Config) (history : List Operation) (i : Nat) :
    let t := (new config).after history
    t.nav.currentPage = some i →
      (i + 1 < t.nav.pages.length → (t.Brings "/next" (i + 1) ↔ t.nav.Leads (i + 1))) ∧
      (t.nav.pages.length ≤ i + 1 → t.navigate "/next" = (.ok (), t)) ∧
      (∀ link ∈ ["/prev", "/back"],
        (0 < i → (t.Brings link (i - 1) ↔ t.nav.Leads (i - 1))) ∧
        (i = 0 → t.navigate link = (.ok (), t))) ∧
      (i + 1 < t.nav.pages.length →
        ((∃ u, t.navigate "/next" = (.ok (), u) ∧ u.nav.currentPage = some (i + 1) ∧
          u.Brings "/prev" i) ↔ t.nav.Leads (i + 1) ∧ t.nav.Leads i)) := by
  intro t hi
  have hs : t.WellFormed := (wellFormed_new config).after history
  have hn : t.Named := (named_new config).after (wellFormed_new config) history
  refine ⟨fun hlt => ?_, navigate_next_last hi, fun link hl => ⟨fun hpos => ?_, ?_⟩,
    round_trip_iff hs hn hi⟩
  · have hp := List.getElem?_eq_getElem hlt
    exact brings_iff hs hn hp (navigate_next hi hp)
  · obtain ⟨k, rfl⟩ := Nat.exists_eq_add_one_of_ne_zero (Nat.pos_iff_ne_zero.mp hpos)
    have hp := List.getElem?_eq_getElem (Nat.lt_of_succ_lt (hs.nav.currentPage _ hi))
    exact brings_iff hs hn hp (navigate_back hl hi hp)
  · rintro rfl
    exact navigate_back_first hl hi

/-- Two pages with ids of their own. -/
theorem steps_to_neighbours_of_two :
    let t := (new {}).after [.render "<page id='a'/><page id='b'/>"]
    t.nav.currentPage = some 0 ∧ t.Brings "/next" 1 ∧ t.navigate "/prev" = (.ok (), t) ∧
      ∃ u, t.navigate "/next" = (.ok (), u) ∧ u.nav.currentPage = some 1 ∧ u.Brings "/prev" 0 := by
  intro t
  have hi : t.nav.currentPage = some 0 := by decide +kernel
  have hlt : 0 + 1 < t.nav.pages.length := by decide +kernel
  have hleads : t.nav.Leads 1 ∧ t.nav.Leads 0 := by decide +kernel
  obtain ⟨hnext, -, hback, hround⟩ :=
    steps_to_neighbours_iff {} [.render "<page id='a'/><page id='b'/>"] 0 hi
  exact ⟨hi, (hnext hlt).mpr hleads.1, (hback "/prev" (by decide)).2 rfl, (hround hlt).mpr hleads⟩

/-- With three pages the last of which has the id of the first, the step from the second to the last
ends on the first. -/
theorem not_steps_to_neighbours : ¬∀ (config : Config) (history : List Operation) (i : Nat),
    let t := (new config).after history
    t.nav.currentPage = some i → i + 1 < t.nav.pages.length → t.Brings "/next" (i + 1) := by
  intro h
  have hhistory := h {} [.render "<page id='a'/><page id='b'/><page id='a'/>", .navigate "/next"] 1
    (by decide +kernel) (by decide +kernel)
  obtain ⟨u, p, hu, hcurrent, -⟩ := hhistory
  have hfirst : (((new {}).after [.render "<page id='a'/><page id='b'/><page id='a'/>",
    .navigate "/next"]).navigate "/next").2.nav.currentPage = some 0 := by decide +kernel
  rw [hu, hcurrent] at hfirst
  exact absurd hfirst (by decide)

end Session
end ScreenMarkup
