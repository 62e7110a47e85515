import ScreenMarkup.Proofs.Session.SiteRendering

/-!
# Stacking a document

What a document puts into one widget comes there in document order, and its
controls are registered in document order too. So stacking sorts it by
z-index, and what has one z-index keeps its order, or is turned around below
zero.
-/

set_option autoImplicit false

namespace ScreenMarkup

/-! ## Planted widgets -/

namespace Screen

variable {s t : Screen} {cs : Controls} {P Q : Handle → Prop} {ps : List (Handle × Handle)}

/-- One list is the other one sorted by z-index. What has the same z-index keeps its order, or is
turned around below zero. -/
structure Stacked (z : Handle → Int) (built now : List Handle) : Prop where
  perm : now.Perm built
  sorted : now.Pairwise fun a b => z a ≤ z b
  kept : ∀ n, 0 ≤ n → now.filter (z · = n) = built.filter (z · = n)
  turned : ∀ n < 0, now.filter (z · = n) = (built.filter (z · = n)).reverse

/-- Controls that come in the order in which their widgets were planted tell the order of the
widgets of one layer. -/
theorem Plants.filter_level (ht : Plants P Q ps s t) (hd : (cs.map Control.target).Nodup)
    (hcs : ((cs.filter fun c => !c.isPage).map Control.target).Sublist (ps.map (·.2)))
    (k : Handle) {n : Int} (hn : n ≠ 0) :
    ((cs.level n).filter (· ∈ t.children k)).filter (· ∈ below ps k) =
      (below ps k).filter (cs.layer · = n) := by
  have hpart : (cs.filter fun c => !c.isPage && c.zIndex = n).Sublist
      (cs.filter fun c => !c.isPage) :=
    List.monotone_filter_right cs fun c hc => (Bool.and_eq_true_iff.mp hc).1
  have hlevel : (cs.level n).Sublist (ps.map (·.2)) := (hpart.map Control.target).trans hcs
  have hstands : ∀ c ∈ below ps k, c ∈ t.children k := fun c hc => by
    rw [← ht.filter_below k] at hc
    exact List.mem_of_mem_filter hc
  refine sublist_ext ht.nodup ((List.filter_sublist.trans List.filter_sublist).trans hlevel)
    (List.filter_sublist.trans (below_sublist ps k)) fun c => ?_
  simp only [List.mem_filter, decide_eq_true_eq, Controls.mem_level hd hn]
  exact ⟨fun hc => ⟨hc.2, hc.1.1⟩, fun hc => ⟨⟨hc.2, hstands c hc.1⟩, hc.1⟩⟩

theorem Plants.stacked (ht : Plants P Q ps s t) (hd : (cs.map Control.target).Nodup)
    (hcs : ((cs.filter fun c => !c.isPage).map Control.target).Sublist (ps.map (·.2)))
    (k : Handle) :
    Stacked cs.layer (below ps k) (((t.stack cs).children k).filter (· ∈ below ps k)) := by
  have hnow (n : Int) :
      (((t.stack cs).children k).filter (· ∈ below ps k)).filter (cs.layer · = n) =
        (((t.stack cs).children k).filter (cs.layer · = n)).filter (· ∈ below ps k) :=
    List.filter_comm _ _ _
  refine ⟨?_, (ht.sound.children_stack_sorted hd k).sublist List.filter_sublist, fun n hn => ?_,
    fun n hn => ?_⟩
  · have hperm := (ht.sound.children_stack_perm cs k).filter (· ∈ below ps k)
    rwa [ht.filter_below k] at hperm
  · rw [hnow, ht.sound.filter_children_stack hd, if_neg hn.not_gt]
    split
    · next hzero => rw [hzero, List.filter_comm, ht.filter_below k]
    · next hne => exact ht.filter_level hd hcs k hne
  · rw [hnow, ht.sound.filter_children_stack hd, if_pos hn, List.filter_reverse,
      ht.filter_level hd hcs k hn.ne]

end Screen

/-! ## What elements ask for -/

namespace Site

variable {q : Site} {s t : Session} {c : Control}

/-- The element has a control. -/
def Recorded (q : Site) (t : Session) : Prop := ∃ c ∈ t.controls, c.target = q.widget

/-- The id of its control, or else the written one. -/
def name (q : Site) (t : Session) : String :=
  ((List.find? (fun c => c.target = q.widget) t.controls).map (·.id)).getD q.attrs.id

/-- The z-index that the element asks for: the written one, or that of the rules if none is written
or zero. -/
def wanted (q : Site) (t : Session) : Int :=
  if q.attrs.zIndex ≠ 0 then q.attrs.zIndex else (q.ruled t (q.name t)).getD 0

/-- The rules do not compete with what is written, and give nothing where none are applied. -/
structure Plain (q : Site) (t : Session) : Prop where
  ruled : q.kind.isRuled = true → q.attrs.zIndex = 0 ∨ q.ruled t (q.name t) = none
  unruled : q.kind.isRuled = false → q.attrs.zIndex ≠ 0 ∨ q.ruled t (q.name t) = none

theorem Plain.level_eq (hq : q.Plain t) : q.level t (q.name t) = q.wanted t := by
  unfold level wanted
  cases hk : q.kind.isRuled with
  | true =>
    rw [if_pos rfl]
    rcases hq.ruled hk with hz | hnone
    · rw [hz, if_neg (by simp)]
    · rw [hnone]
      by_cases hz : q.attrs.zIndex = 0 <;> simp [hz]
  | false =>
    rw [if_neg (by simp)]
    rcases hq.unruled hk with hz | hnone
    · rw [if_pos hz]
    · rw [hnone]
      by_cases hz : q.attrs.zIndex = 0 <;> simp [hz]

end Site

namespace Session

variable {s t : Session} {q : Site} {c : Control} {qs : List Site} {P Q : Handle → Prop}

theorem WellFormed.targets_nodup (hs : s.WellFormed) : (s.controls.map Control.target).Nodup := by
  refine List.pairwise_map.mpr (hs.apart.imp fun {c d} hapart he => ?_)
  exact hapart _ c.owns_target (he ▸ d.owns_target)

/-- The control of a site is no page. -/
theorem Fills.isPage_eq_false (hs : s.WellFormed) (hf : Fills P Q qs s t) (hq : q ∈ qs)
    (hc : c ∈ t.controls) (hm : c.target = q.widget) : c.isPage = false := by
  obtain ⟨new, he, -, hnew⟩ := hf.builds.controls
  rw [he] at hc
  rcases List.mem_append.mp hc with hc | hc
  · have hlive := (hs.fits c hc).live c.owns_target
    have hfresh := hf.plants.fresh _ (List.mem_map_of_mem hq)
    rw [hm] at hlive
    rw [show q.planting.2 = q.widget from rfl, hlive] at hfresh
    cases hfresh
  · exact decide_eq_false (hnew c hc).kind

/-- The controls that are no pages come in the order of the sites. -/
theorem Fills.targets_sublist (hf : Fills P Q qs s t) (hpages : ∀ c ∈ s.controls, c.kind = .page) :
    ((t.controls.filter fun c => !c.isPage).map Control.target).Sublist
      ((qs.map Site.planting).map (·.2)) := by
  obtain ⟨new, he, hsub, -⟩ := hf.records.controls
  have hnone : s.controls.filter (fun c => !c.isPage) = [] :=
    List.filter_eq_nil_iff.mpr fun c hc => by simp [Control.isPage, hpages c hc]
  rw [he, List.filter_append, hnone, List.nil_append, map_planting]
  exact (List.filter_sublist.map _).trans hsub

end Session

variable {t : Session} {q : Site} {c : Control}

theorem Site.Goes.name {id : String} (ht : t.WellFormed) (hg : q.Goes id t) : q.name t = id := by
  rcases hg with ⟨c, hc, htarget, rfl⟩ | ⟨rfl, hid, hunowned⟩
  · have hfind : List.find? (fun d => d.target = q.widget) t.controls = some c :=
      Controls.find?_target ht.targets_nodup hc (decide_eq_true htarget) fun d hd =>
        (decide_eq_true_eq.mp hd).trans htarget.symm
    rw [Site.name, hfind, Option.map_some, Option.getD_some]
  · have hfind : List.find? (fun d => d.target = q.widget) t.controls = none :=
      List.find?_eq_none.mpr fun d hd he =>
        hunowned d hd (decide_eq_true_eq.mp he ▸ d.owns_target)
    rw [Site.name, hfind, Option.map_none, Option.getD_none, hid]

theorem Control.Marks.name (ht : t.WellFormed) (hc : c ∈ t.controls) (hm : c.Marks q t) :
    q.name t = c.id :=
  Site.Goes.name ht (.inl ⟨c, hc, hm.target, rfl⟩)

namespace Session

variable {s : Session}

/-- A site with a control stands on the layer that its control got, one without stands on zero. -/
theorem render_layer (hs : s.WellFormed) (hz : s.Waits) (markup : String)
    (hq : q ∈ s.sites markup) :
    let t := s.render markup
    (q.attrs.id ≠ "" → q.Recorded t) ∧ (¬ q.Recorded t → t.controls.layer q.widget = 0) ∧
      (q.Recorded t → t.controls.layer q.widget = q.level t (q.name t)) := by
  intro t
  have ht : t.WellFormed := hs.render markup
  have hserved := render_serves hs hz markup q hq
  refine ⟨fun hid => ?_, fun hnone => ?_, fun ⟨d, hd, htarget⟩ => ?_⟩
  · rcases hserved with ⟨c, hc, hm⟩ | hbare
    · exact ⟨c, hc, hm.target⟩
    · exact absurd hbare.unnamed hid
  · refine Controls.layer_eq_zero fun hin => hnone ?_
    obtain ⟨c, hc, htarget⟩ := List.mem_map.mp hin
    exact ⟨c, hc, htarget⟩
  · rcases hserved with ⟨c, hc, hm⟩ | hbare
    · obtain ⟨⟨head, store, sheet, hl⟩, -⟩ := layOut_hosts hs markup
      obtain ⟨-, m, v, -, he⟩ := render_built hs markup
      have hpage : c.isPage = false :=
        (sites_fill hs hz markup).isPage_eq_false hl.wellFormed hq (by rw [he] at hc; exact hc)
          hm.target
      rw [← hm.target, Controls.layer_target ht.targets_nodup hc hpage, hm.zIndex, hm.name ht hc]
    · exact absurd (htarget ▸ d.owns_target) (hbare.unowned d hd)

/-- Showing a page leaves the children in the order in which they were stacked. -/
theorem render_stacked (hs : s.WellFormed) (hz : s.Waits) (hc : s.controls = [])
    (markup : String) (h : Handle) :
    let t := s.render markup
    let built := ((s.sites markup).filter (·.parent = h)).map Site.widget
    Screen.Stacked t.controls.layer built ((t.screen.children h).filter (· ∈ built)) := by
  intro t built
  obtain ⟨⟨head, store, sheet, hl⟩, -⟩ := layOut_hosts hs markup
  obtain ⟨hu, m, v, hv, he⟩ := render_built hs markup
  have hf := sites_fill hs hz markup
  have hpages : ∀ c ∈ (s.layOut markup).1.controls, c.kind = .page := fun c hcm => by
    obtain ⟨new, hnew, hkind⟩ := hl.controls
    rw [hnew, show ({ s with head := head, store := store, sheet := sheet } : Session).controls = []
      from hc] at hcm
    exact hkind c hcm
  have hstacked := hf.plants.stacked hu.targets_nodup (hf.targets_sublist hpages) h
  rw [below_planting, ← hv.children] at hstacked
  unfold t
  rw [he]
  exact hstacked

/-- On a cleared screen, the widgets that a document puts into one widget end up sorted by z-index:
all that was not laid out before and does not belong to the widget of an element. An element without
a control counts as zero, and so nothing that it asks for is heard. -/
theorem render_stacks (config : Config) (history : List Operation) (markup : String) :
    let s := ((Session.new config).after history).clear
    let t := s.render markup
    let z := t.controls.layer
    (∀ q ∈ s.sites markup, (q.attrs.id ≠ "" → q.Recorded t) ∧
      (¬ q.Recorded t → z q.widget = 0) ∧
      (q.Recorded t → q.Plain t → z q.widget = q.wanted t)) ∧
    ∀ h,
      let built := ((s.sites markup).filter (·.parent = h)).map Site.widget
      (∀ k ∈ t.screen.children h, (s.layOut markup).1.screen.isLive k = true ∨ k ∈ built ∨
        ∃ q ∈ s.sites markup, q.widget = h) ∧
      Screen.Stacked z built ((t.screen.children h).filter (· ∈ built)) := by
  intro s t z
  have hs : s.WellFormed := ((wellFormed_new config).after history).clear
  have hwaits : s.Waits := fun _ _ => rfl
  refine ⟨fun q hq => ?_, fun h => ⟨fun k hk => ?_, render_stacked hs hwaits rfl markup h⟩⟩
  · obtain ⟨hnamed, hunrecorded, hrecorded⟩ := render_layer hs hwaits markup hq
    exact ⟨hnamed, hunrecorded, fun hrec hplain => (hrecorded hrec).trans hplain.level_eq⟩
  · rcases render_covered hs hwaits markup h k hk with hl | ⟨q, hq, hin, rfl⟩ | hinside
    · exact .inl hl
    · refine .inr (.inl (List.mem_map_of_mem (List.mem_filter.mpr ⟨hq, ?_⟩)))
      exact decide_eq_true hin
    · exact .inr (.inr hinside)

/-- Three labels, the second one without an id. -/
theorem render_stacks_of_labels :
    let s := ((Session.new {}).after []).clear
    let markup := "<label id='a' z-index='3'>a</label><label z-index='9'>b</label>" ++
      "<label id='c' z-index='3'>c</label>"
    let t := s.render markup
    let z := t.controls.layer
    let built := ((s.sites markup).filter (·.parent = Handle.screen)).map Site.widget
    let now := (t.screen.children Handle.screen).filter (· ∈ built)
    built = [⟨1, 1⟩, ⟨2, 1⟩, ⟨3, 1⟩] ∧
    (∃ q ∈ s.sites markup, q.attrs.id = "a" ∧ z q.widget = q.wanted t) ∧
    now.Pairwise (fun a b => z a ≤ z b) ∧ now.filter (z · = 0) = [⟨2, 1⟩] ∧
    now.filter (z · = 3) = [⟨1, 1⟩, ⟨3, 1⟩] := by
  intro s markup t z built now
  have hfacts : built = [⟨1, 1⟩, ⟨2, 1⟩, ⟨3, 1⟩] ∧
      (∃ q ∈ s.sites markup, q.attrs.id = "a" ∧ q.ruled t (q.name t) = none) ∧
      built.filter (z · = 0) = [⟨2, 1⟩] ∧ built.filter (z · = 3) = [⟨1, 1⟩, ⟨3, 1⟩] := by
    decide +kernel
  obtain ⟨hbuilt, ⟨q, hq, hid, hruled⟩, hzero, hthree⟩ := hfacts
  obtain ⟨hlayers, hchildren⟩ := render_stacks {} [] markup
  obtain ⟨hnamed, -, hwanted⟩ := hlayers q hq
  obtain ⟨-, -, hsorted, hkept, -⟩ := hchildren Handle.screen
  have hplain : q.Plain t := ⟨fun _ => .inr hruled, fun _ => .inr hruled⟩
  have hrecorded : q.Recorded t := hnamed (by rw [hid]; decide)
  exact ⟨hbuilt, ⟨q, hq, hid, hwanted hrecorded hplain⟩, hsorted,
    (hkept 0 (by decide)).trans hzero, (hkept 3 (by decide)).trans hthree⟩

/-- The z-index that is asked for by the element that was built as a widget. -/
def wantedAt (t : Session) (qs : List Site) (h : Handle) : Int :=
  ((qs.find? (·.widget = h)).map (·.wanted t)).getD 0

/-- A label without an id is not raised. -/
theorem not_render_stacks_as_wanted :
    ¬ ∀ (config : Config) (history : List Operation) (markup : String),
      let s := ((Session.new config).after history).clear
      let t := s.render markup
      let z := t.wantedAt (s.sites markup)
      ∀ h,
        let built := ((s.sites markup).filter (·.parent = h)).map Site.widget
        let now := (t.screen.children h).filter (· ∈ built)
        now.Perm built ∧ now.Pairwise (fun a b => z a ≤ z b) ∧
          ∀ n, now.filter (z · = n) = built.filter (z · = n) := by
  intro hall
  obtain ⟨-, hsorted, -⟩ :=
    hall {} [] "<label z-index='5'>a</label><label>b</label>" Handle.screen
  exact absurd hsorted (by decide +kernel)

end Session
end ScreenMarkup
