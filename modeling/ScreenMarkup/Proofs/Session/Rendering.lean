import ScreenMarkup.Proofs.Navigation.Display
import ScreenMarkup.Proofs.Session.Layout

/-!
# Rendering

A rendered document is well formed, its controls show their variables, and
if anything is shown first, it is the only thing that is.
-/

set_option autoImplicit false

namespace ScreenMarkup

open Navigation (Displayed)

namespace Control

/-- The control shows all the variables it depends on. -/
structure Shows (store : Store) (s : Screen) (c : Control) : Prop where
  text : c.ShowsText store s
  value : c.ShowsValue store s
  visibility : c.ShowsVisibility store s

/-- What a control shows is the content of its widgets. -/
theorem Shows.congr {store : Store} {s t : Screen} {c : Control} (hc : c.Shows store s)
    (hw : ∀ h w, c.Owns h → s.widget? h = some w → ∃ v, t.widget? h = some v ∧
      v.content = w.content) : c.Shows store t := by
  refine ⟨?_, ?_, ?_⟩
  · obtain ⟨w, hs, ht⟩ := hc.text
    obtain ⟨v, hv, he⟩ := hw _ w c.owns_obj hs
    exact ⟨v, hv, he ▸ ht⟩
  · obtain ⟨w, hs, ht⟩ := hc.value
    obtain ⟨v, hv, he⟩ := hw _ w c.owns_obj hs
    exact ⟨v, hv, he ▸ ht⟩
  · obtain ⟨w, hs, ht⟩ := hc.visibility
    obtain ⟨v, hv, he⟩ := hw _ w c.owns_target hs
    exact ⟨v, hv, he ▸ ht⟩

/-- A control that depends on no variable shows all of them. -/
theorem Constant.shows {store : Store} {s : Screen} {c : Control} (hc : c.Constant)
    (hf : c.Fits s) : c.Shows store s := by
  obtain ⟨w, hw⟩ := Screen.isLive_iff.mp (hf.live c.owns_obj)
  obtain ⟨v, hv⟩ := Screen.isLive_iff.mp (hf.live c.owns_target)
  refine ⟨⟨w, hw, fun t ht => ?_⟩, ⟨w, hw, fun b hb => ?_⟩, ⟨v, hv, fun b hb => ?_⟩⟩
  · rw [hc.template] at ht
    cases ht
  · rw [hc.bound] at hb
    cases hb
  · rw [hc.visible] at hb
    cases hb

end Control

namespace Session

variable {s t u : Session} {h : Handle}

/-- Every control shows its variables. -/
def Consistent (s : Session) : Prop := ∀ c ∈ s.controls, c.Shows s.store s.screen

/-! ## Showing a page -/

theorem WellFormed.displayed (hs : s.WellFormed) {m : Navigation} {v : Screen}
    (hd : Displayed s.nav s.screen m v) :
    ({ s with nav := m, screen := v } : Session).WellFormed where
  screen := (hd.steers.retains hs.screen).wellFormed
  fits c hc := (hs.fits c hc).retain (hd.steers.retains hs.screen)
  apart := hs.apart
  nav := hd.wellFormed
  keyboard r hr l hl hk :=
    (hd.steers.retains hs.screen).kind _ _ (hs.keyboard r hr l hl hk)

/-- Showing a page leaves what controls show as it is. -/
theorem WellFormed.steer_content (hs : s.WellFormed) {c : Control} (hc : c ∈ s.controls)
    (hp : c.kind ≠ .page) (ho : c.Owns h) {v : Screen} (hv : s.screen.Steers v) {w : Widget}
    (hw : s.screen.widget? h = some w) : ∃ x, v.widget? h = some x ∧ x.content = w.content := by
  obtain ⟨x, hx, hsame, hkeep⟩ := hv.exists_widget hw
  obtain ⟨k, hk, hn⟩ := (hs.fits c hc).kind h ho
  rw [Screen.kind?, hw, Option.map_some] at hk
  have hk : w.kind = k := Option.some.inj hk
  have hfalse : w.kind.navigates = false := by
    rw [hk, ← Bool.not_eq_true, hn]
    exact hp
  refine ⟨x, hx, ?_⟩
  rw [hsame, hkeep hfalse]
  rfl

/-- Showing a page is no matter of the controls. -/
theorem Consistent.steer (hc : s.Consistent) (hs : s.WellFormed) {m : Navigation} {v : Screen}
    (hv : s.screen.Steers v) : ({ s with nav := m, screen := v } : Session).Consistent := by
  intro c hcm
  have hf := hs.fits c hcm
  by_cases hp : c.kind = .page
  · exact (hf.page hp).shows (hf.retain (hv.retains hs.screen))
  · exact (hc c hcm).congr fun h w ho hw => hs.steer_content hcm hp ho hv hw

/-! ## The passes -/

/-- What the first page may be: the default one, then the first group or else the first page. -/
def openings (s : Session) : List String :=
  (if s.head.defaultPage = "" then [] else [s.head.defaultPage]) ++
    ((s.nav.groups.head?.map (·.id)).or (s.nav.pages.head?.map (·.id))).toList

/-- The element that describes the app: the whole document, if there is none. -/
def app (markup : String) : Element :=
  let doc := Markup.parse markup
  (doc.find? "app").getD doc

/-- A rendered document before its first page is shown. -/
def prepare (s : Session) (markup : String) : Session :=
  let doc := Markup.parse markup
  let app := (doc.find? "app").getD doc
  let (head, store, sheet) := Head.read app s.store {} s.config.iconDir
  let s := { s with head := head, store := store, sheet := sheet }
  let layout := Layout.ofElements doc.children
  let (s, tiles) := collect renderGroup layout.groups s
  let (s, pages) := collect renderPage layout.pages s
  let contents :=
    if s.nav.pages.isEmpty && s.nav.groups.isEmpty then
      [⟨(app.find? "ui").getD app, Handle.screen⟩]
    else tiles ++ pages
  let s := contents.foldl (fun s c => buildAll c.parent c.element.children s) s
  let s := s.mapScreen (·.stack s.controls)
  { s with pendingZ := [] }

theorem render_eq (s : Session) (markup : String) :
    s.render markup = (s.prepare markup).showFirst := rfl

theorem contents_builds {contents : List Content} (hs : s.WellFormed)
    (hc : ∀ c ∈ contents, s.Holds c.parent) :
    Builds s (contents.foldl (fun s c => buildAll c.parent c.element.children s) s) := by
  induction contents generalizing s with
  | nil => exact Builds.refl hs.screen
  | cons c cs ih =>
    have hb := buildAll_builds c.element.children hs (hc c (by simp))
    exact hb.trans (ih (hb.wellFormed hs) fun c hm => hb.holds (hc c (by simp [hm])))

/-- Reading a head changes nothing on the screen. -/
theorem WellFormed.readHead (hs : s.WellFormed) (head : Head) (store : Store)
    (sheet : Stylesheet) :
    ({ s with head := head, store := store, sheet := sheet } : Session).WellFormed :=
  ⟨hs.screen, hs.fits, hs.apart, hs.nav, hs.keyboard⟩

/-- A document is laid out, and then its widgets are built. What each step of laying out keeps, the
layout keeps. -/
theorem prepare_keeps {P : Session → Session → Prop} (hrefl : ∀ s, P s s)
    (htrans : ∀ s t u, P s t → P t u → P s u)
    (hgroup : ∀ s e, s.WellFormed → P s (s.renderGroup e).1)
    (hpage : ∀ s e, s.WellFormed → P s (s.renderPage e).1) (hs : s.WellFormed)
    (markup : String) :
    ∃ (head : Head) (store : Store) (sheet : Stylesheet) (u v : Session),
      Head.read (app markup) s.store {} s.config.iconDir = (head, store, sheet) ∧
      Lays { s with head := head, store := store, sheet := sheet } u ∧
      P { s with head := head, store := store, sheet := sheet } u ∧ Builds u v ∧
      s.prepare markup = { v with screen := v.screen.stack v.controls, pendingZ := [] } := by
  unfold prepare
  extract_lets doc app layout
  split
  next head store sheet hr =>
  extract_lets s₀
  have hs₀ : s₀.WellFormed := hs.readHead head store sheet
  split
  next s₁ tiles hg =>
  split
  next s₂ pages hp =>
  obtain ⟨⟨hgroups, hgc⟩, hkeep₁⟩ := collect_places hrefl htrans
    (fun s e hs => ⟨renderGroup_places hs e, hgroup s e hs⟩) layout.groups hs₀
  rw [hg] at hgroups hgc hkeep₁
  obtain ⟨⟨hpages, hpc⟩, hkeep₂⟩ := collect_places hrefl htrans
    (fun s e hs => ⟨renderPage_places hs e, hpage s e hs⟩) layout.pages hgroups.wellFormed
  rw [hp] at hpages hpc hkeep₂
  extract_lets contents s₃ s₄
  have hl := hgroups.trans hpages
  have hcontents : ∀ c ∈ contents, s₂.Holds c.parent := by
    intro c hc
    unfold contents at hc
    split at hc
    · rw [List.mem_singleton.mp hc]
      exact ⟨.screen, hl.wellFormed.screen.top, rfl⟩
    · rcases List.mem_append.mp hc with hc | hc
      · exact hpages.holds (hgc c hc)
      · exact hpc c hc
  exact ⟨head, store, sheet, s₂, s₃, hr, hl, htrans _ _ _ hkeep₁ hkeep₂,
    contents_builds hl.wellFormed hcontents, rfl⟩

theorem prepare_spec (hs : s.WellFormed) (markup : String) :
    ∃ (head : Head) (store : Store) (sheet : Stylesheet) (u v : Session),
      Lays { s with head := head, store := store, sheet := sheet } u ∧ Builds u v ∧
      s.prepare markup = { v with screen := v.screen.stack v.controls, pendingZ := [] } := by
  obtain ⟨head, store, sheet, u, v, -, hl, -, hb, he⟩ := prepare_keeps (P := fun _ _ => True)
    (fun _ => trivial) (fun _ _ _ _ _ => trivial) (fun _ _ _ => trivial) (fun _ _ _ => trivial)
    hs markup
  exact ⟨head, store, sheet, u, v, hl, hb, he⟩

theorem WellFormed.stack (hs : s.WellFormed) :
    ({ s with screen := s.screen.stack s.controls, pendingZ := [] } : Session).WellFormed :=
  hs.retain (t := { s with screen := s.screen.stack s.controls, pendingZ := [] })
    (hs.screen.extends_stack s.controls).1.retains rfl rfl rfl

theorem WellFormed.prepare (hs : s.WellFormed) (markup : String) :
    (s.prepare markup).WellFormed := by
  obtain ⟨head, store, sheet, u, v, hl, hb, he⟩ := prepare_spec hs markup
  rw [he]
  exact (hb.wellFormed hl.wellFormed).stack

/-! ### On an empty screen -/

theorem Unshown.preserve (hu : s.Unshown) (hs : s.WellFormed) (hn : t.nav = s.nav)
    (hp : s.screen.Preserves t.screen) : t.Unshown := by
  refine ⟨hn ▸ hu.page, hn ▸ hu.group, hn ▸ hu.keyboards, fun h hh => ?_⟩
  rw [hn] at hh
  have hl : s.screen.isLive h = true := by
    rcases List.mem_append.mp hh with hh | hh
    · exact hs.nav.target_live hh
    · exact Screen.isLive_of_kind? (hs.nav.dots_kind hh)
  rw [hp.isHidden hl]
  exact hu.visible h hh

theorem prepare_unshown (hs : s.WellFormed) (hn : s.nav = {}) (markup : String) :
    (s.prepare markup).Unshown := by
  obtain ⟨head, store, sheet, u, v, hl, hb, he⟩ := prepare_spec hs markup
  have hstart : ({ s with head := head, store := store, sheet := sheet } : Session).Unshown := by
    constructor <;> simp [hn, Navigation.targets, Navigation.allDots]
  have hv := (hl.unshown hstart).preserve hl.wellFormed hb.nav hb.screen.preserves
  rw [he]
  have hstack := ((hb.wellFormed hl.wellFormed).screen.extends_stack v.controls).1
  exact Unshown.preserve (t := { v with screen := v.screen.stack v.controls, pendingZ := [] }) hv
    (hb.wellFormed hl.wellFormed) rfl hstack.preserves

theorem Builds.consistent (hb : Builds s t) (hc : s.Consistent) : t.Consistent := by
  obtain ⟨new, he, -, hnew⟩ := hb.controls
  intro c hcm
  rw [he] at hcm
  rw [hb.store]
  rcases List.mem_append.mp hcm with hcm | hcm
  · exact (hc c hcm).congr fun h w _ hw => ⟨w, hb.screen.widget h w hw, rfl⟩
  · exact ⟨(hnew c hcm).text, (hnew c hcm).value, (hnew c hcm).visibility⟩

theorem prepare_consistent (hs : s.WellFormed) (hc : s.controls = []) (markup : String) :
    (s.prepare markup).Consistent := by
  obtain ⟨head, store, sheet, u, v, hl, hb, he⟩ := prepare_spec hs markup
  have hu : u.Consistent := by
    obtain ⟨new, hnew, hkind⟩ := hl.controls
    intro c hcm
    have hf := hl.wellFormed.fits c hcm
    rw [hnew] at hcm
    have hcm : c ∈ new := by simpa [hc] using hcm
    exact (hf.page (hkind c hcm)).shows hf
  have hv := hb.consistent hu
  obtain ⟨-, hstack⟩ := (hb.wellFormed hl.wellFormed).screen.extends_stack v.controls
  rw [he]
  intro c hcm
  exact (hv c hcm).congr fun h w _ hw => ⟨w, (hstack h).trans hw, rfl⟩

/-! ## The first page -/

theorem showPage_spec (hs : s.WellFormed) (path : String) :
    ((∃ e, s.nav.goal path = .error e) ∧ (∃ e, s.showPage path = (.error e, s))) ∨
    ((∃ goal, s.nav.goal path = .ok goal) ∧ ∃ m v, Displayed s.nav s.screen m v ∧
      s.showPage path = (.ok (), { s with nav := m, screen := v })) := by
  unfold showPage
  cases hg : s.nav.goal path with
  | error e =>
    have hd : s.nav.display s.screen path = .error e := by
      rw [Navigation.display, hg]
      rfl
    rw [hd]
    exact .inl ⟨⟨e, rfl⟩, e, rfl⟩
  | ok goal =>
    have hd : s.nav.display s.screen path = .ok (s.nav.showGoal s.screen goal) := by
      rw [Navigation.display, hg]
      rfl
    have hspec := Navigation.display_spec hs.screen hs.nav hd
    rw [hd]
    exact .inr ⟨⟨goal, rfl⟩, _, _, hspec, rfl⟩

/-- Either one of the openings is found, and then it is shown, or nothing happens. -/
theorem showFirst_spec (hs : s.WellFormed) :
    (s.showFirst = s ∧ ∀ path ∈ s.openings, ∃ e, s.nav.goal path = .error e) ∨
    (∃ path ∈ s.openings, ∃ goal, s.nav.goal path = .ok goal) ∧ ∃ m v,
      Displayed s.nav s.screen m v ∧ s.showFirst = { s with nav := m, screen := v } := by
  unfold showFirst openings
  extract_lets first fallback
  have hfallback : (fallback = s ∧ ∀ path ∈ first.toList, ∃ e, s.nav.goal path = .error e) ∨
      (∃ path ∈ first.toList, ∃ goal, s.nav.goal path = .ok goal) ∧ ∃ m v,
        Displayed s.nav s.screen m v ∧ fallback = { s with nav := m, screen := v } := by
    unfold fallback
    cases first with
    | none => exact .inl ⟨rfl, fun path hp => by simp at hp⟩
    | some id =>
      rcases showPage_spec hs id with ⟨he, e, hshow⟩ | ⟨hg, m, v, hd, hshow⟩
      · refine .inl ⟨congrArg Prod.snd hshow, fun path hp => ?_⟩
        rw [Option.mem_toList, Option.some.injEq] at hp
        exact hp ▸ he
      · exact .inr ⟨⟨id, by simp, hg⟩, m, v, hd, congrArg Prod.snd hshow⟩
  by_cases hdefault : s.head.defaultPage = ""
  · rw [if_pos hdefault, if_pos hdefault, List.nil_append]
    exact hfallback
  · rw [if_neg hdefault, if_neg hdefault]
    rcases showPage_spec hs s.head.defaultPage with ⟨he, e, hshow⟩ | ⟨hg, m, v, hd, hshow⟩
    · rw [hshow]
      rcases hfallback with ⟨hf, hnone⟩ | ⟨⟨path, hp, hg⟩, hd⟩
      · refine .inl ⟨hf, fun path hp => ?_⟩
        rcases List.mem_append.mp hp with hp | hp
        · rw [List.mem_singleton.mp hp]
          exact he
        · exact hnone path hp
      · exact .inr ⟨⟨path, List.mem_append_right _ hp, hg⟩, hd⟩
    · rw [hshow]
      exact .inr ⟨⟨_, List.mem_append_left _ (List.mem_singleton.mpr rfl), hg⟩, m, v, hd, rfl⟩

theorem WellFormed.render (hs : s.WellFormed) (markup : String) : (s.render markup).WellFormed := by
  rw [render_eq]
  rcases showFirst_spec (hs.prepare markup) with ⟨he, -⟩ | ⟨-, m, v, hd, he⟩
  · rw [he]
    exact hs.prepare markup
  · rw [he]
    exact (hs.prepare markup).displayed hd

theorem render_consistent (hs : s.WellFormed) (hc : s.controls = []) (markup : String) :
    (s.render markup).Consistent := by
  have hp := prepare_consistent hs hc markup
  rw [render_eq]
  rcases showFirst_spec (hs.prepare markup) with ⟨he, -⟩ | ⟨-, m, v, hd, he⟩
  · rw [he]
    exact hp
  · rw [he]
    exact hp.steer (hs.prepare markup) hd.steers

end Session
end ScreenMarkup
