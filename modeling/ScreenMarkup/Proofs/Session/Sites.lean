import ScreenMarkup.Proofs.Screen.Planting
import ScreenMarkup.Proofs.Session.Placement
import ScreenMarkup.Proofs.Style.Position

/-!
# Sites

A site is an element that is built as a widget, with the widget and what it
was built in. `sites` lists them in the order in which their builders end:
what stands in one widget in document order, and the widgets inside of tabs
before the tabs. The control of a site, if it has one, has the visibility of
the element and its id, or else one that was made for it. Its z-index is the
written one, unless the rules give another. Where the widget of a site comes to
lie is written, or the rules tell it, except that text loses in one axis what
the rules tell if the other axis is written.
-/

set_option autoImplicit false

namespace ScreenMarkup

/-- The kinds that rules are applied to. -/
def ControlKind.isRuled : ControlKind → Bool
  | canvas | tabs | page => false
  | _ => true

/-- The kinds that are placed like text. -/
def ControlKind.isText : ControlKind → Bool
  | label | markdown => true
  | _ => false

/-- An element that is built as a widget. -/
structure Site where
  kind : ControlKind
  element : Element
  /-- The widget that it is built in. -/
  parent : Handle
  widget : Handle

namespace Site

variable (q : Site)

def attrs : WidgetAttrs := WidgetAttrs.ofElement q.element

def planting : Handle × Handle := (q.parent, q.widget)

/-- The id by which rules select the element whose control has an id. An image has its rules
applied before it is given one. -/
def selector (id : String) : String := if q.kind = .image then q.attrs.id else id

/-- The z-index that the rules give to the element. -/
def ruled (s : Session) (id : String) : Option Int :=
  let classes := if q.attrs.hasBoundClasses then s.shown q.attrs.classes else q.attrs.classes
  (s.sheet.resolve? q.kind.tag (q.selector id) classes "z-index").map
    fun v => Numeric.leadingInt v.toList

/-- The z-index that its control gets with an id. -/
def level (s : Session) (id : String) : Int :=
  if q.kind.isRuled then (q.ruled s id).getD q.attrs.zIndex else q.attrs.zIndex

/-- The element asks for no alignment. -/
def Unaligned : Prop := q.element.attr "align" = "" ∧ q.element.attr "valign" = ""

/-- The coordinates that are written. -/
def written (s : Session) : Axis → Option Int
  | .across => s.across? q.element "x"
  | .down => s.down? q.element "y"

/-- The position that the rules give to the element. -/
def ruledPosition (s : Session) (id : String) : Axis → Option Int :=
  let classes := if q.attrs.hasBoundClasses then s.shown q.attrs.classes else q.attrs.classes
  s.sheet.position? q.kind.tag (q.selector id) classes s.config.screen

/-- The coordinate that the element gets if nothing aligns it. -/
def coordinate (s : Session) (id : String) (a : Axis) : Int :=
  (q.written s a).getD <|
    if q.kind.isText && (q.written s a.other).isSome then 0 else (q.ruledPosition s id a).getD 0

end Site

/-- The widget is visible, and no matter of the navigation. -/
def Screen.Shown (s : Screen) (h : Handle) : Prop :=
  ∃ w, s.widget? h = some w ∧ w.kind.navigates = false ∧ w.hidden = false

/-- The element has no id, and so it has no control. A bound visibility gives an id to all kinds but
tabs, and leaves tabs visible. -/
structure Site.Bare (q : Site) (t : Session) : Prop where
  unnamed : q.attrs.id = ""
  unowned : ∀ c ∈ t.controls, ¬ c.Owns q.widget
  visible : q.attrs.hasBoundVisibility = true → q.kind = .tabs ∧ t.screen.Shown q.widget

/-- The control of the element goes by the id, or the element has neither. -/
def Site.Goes (q : Site) (id : String) (t : Session) : Prop :=
  (∃ c ∈ t.controls, c.target = q.widget ∧ c.id = id) ∨
    id = "" ∧ q.attrs.id = "" ∧ ∀ c ∈ t.controls, ¬ c.Owns q.widget

/-- The widget lies where its attributes and the rules for its id want it. -/
def Site.Lands (q : Site) (t : Session) : Prop :=
  ∃ id, q.Goes id t ∧ ∃ p, t.screen.Lies q.widget p ∧ ∀ a : Axis, a.part p = q.coordinate t id a

/-- The control is that of the site. All kinds but tabs may have been given an id. -/
structure Control.Marks (c : Control) (q : Site) (s : Session) : Prop where
  kind : c.kind = q.kind
  target : c.target = q.widget
  named : c.id ≠ ""
  id : q.attrs.id ≠ "" ∨ q.kind = .tabs → c.id = q.attrs.id
  visible : c.visibleBind =
    if q.attrs.hasBoundVisibility then Control.bound? q.attrs.visible else none
  zIndex : c.zIndex = q.level s c.id

namespace Session

/-! ## Listing the sites -/

def siteOf (s : Session) (kind : ControlKind) (e : Element) (parent : Handle) : Site :=
  ⟨kind, e, parent, (s.create kind.widget parent).1⟩

mutual
def sitesIn (parent : Handle) (e : Element) (s : Session) : List Site :=
  match e with
  | ⟨tag, attrs, text, children, inner⟩ =>
    let e : Element := ⟨tag, attrs, text, children, inner⟩
    match ControlKind.ofTag? tag with
    | none => []
    | some .tabs =>
      let (view, t) := s.createTabView e parent
      sitesInTabs view children t ++ [s.siteOf .tabs e parent]
    | some kind =>
      -- a canvas that cannot be made leaves no widget
      [s.siteOf kind e parent].filter fun q => (s.buildLeaf kind e parent).screen.isLive q.widget
/-- The sites of some elements. -/
def sitesInAll (parent : Handle) (es : List Element) (s : Session) : List Site :=
  match es with
  | [] => []
  | e :: es => sitesIn parent e s ++ sitesInAll parent es (buildWidget parent e s)
/-- The sites in the tabs among some elements. -/
def sitesInTabs (view : Handle) (es : List Element) (s : Session) : List Site :=
  match es with
  | [] => []
  | ⟨tag, attrs, text, children, inner⟩ :: es =>
    if tag = "tab" then
      let (h, s) := s.createTab ⟨tag, attrs, text, children, inner⟩ view
      sitesInAll h children s ++ sitesInTabs view es (buildAll h children s)
    else sitesInTabs view es s
end

def sitesAmong (contents : List Content) (s : Session) : List Site :=
  match contents with
  | [] => []
  | c :: cs =>
    sitesInAll c.parent c.element.children s ++
      sitesAmong cs (buildAll c.parent c.element.children s)

/-- The elements of a document that a rendering builds as widgets. -/
def sites (s : Session) (markup : String) : List Site :=
  sitesAmong (s.layOut markup).2 (s.layOut markup).1

end Session

/-! ## What is recorded of them -/

namespace Session

variable {s t u : Session} {q : Site} {ps qs : List Site}

/-- The z-indices that wait for a control belong to widgets. -/
def Waits (s : Session) : Prop :=
  ∀ h, s.screen.isLive h = false → s.pendingZ.lookup h = none

/-- The new controls are those of sites, one for each site and in their order. -/
structure Records (qs : List Site) (s t : Session) : Prop where
  controls : ∃ new, t.controls = s.controls ++ new ∧
    (new.map Control.target).Sublist (qs.map Site.widget) ∧ ∀ c ∈ new, ∃ q ∈ qs, c.Marks q s
  served : ∀ q ∈ qs, (∃ c ∈ t.controls, c.Marks q s) ∨ q.Bare t
  waiting : ∀ h, h ∉ qs.map Site.widget → s.pendingZ.lookup h = none → t.pendingZ.lookup h = none

/-- The widgets of the sites are planted, their controls are recorded, and those that rules are
applied to lie where they are wanted. -/
structure Seats (P Q : Handle → Prop) (qs : List Site) (s t : Session) : Prop where
  plants : s.screen.Plants P Q (qs.map Site.planting) t.screen
  records : Records qs s t
  lands : ∀ q ∈ qs, q.kind.isRuled = true → q.Unaligned → q.Lands t

/-- Nothing but the sites is put into a widget. -/
abbrev SeatsIn (parent : Handle) (qs : List Site) (s t : Session) : Prop :=
  Seats (· = parent) (fun _ => False) qs s t

/-- Only the sites are built, and what may be in `Q`. -/
structure Fills (P Q : Handle → Prop) (qs : List Site) (s t : Session) : Prop
    extends Seats P Q qs s t where
  builds : Builds s t

end Session

namespace Site

open Session (Builds)

variable {q : Site} {s t u : Session}

theorem ruled_congr (q : Site) (hsheet : t.sheet = s.sheet) (hstore : t.store = s.store)
    (id : String) : q.ruled t id = q.ruled s id := by
  simp only [ruled, Session.shown, hsheet, hstore]

theorem level_congr (q : Site) (hsheet : t.sheet = s.sheet) (hstore : t.store = s.store)
    (id : String) : q.level t id = q.level s id := by
  rw [level, level, q.ruled_congr hsheet hstore]

theorem coordinate_congr (q : Site) (hsheet : t.sheet = s.sheet) (hstore : t.store = s.store)
    (hconfig : t.config = s.config) (id : String) (a : Axis) :
    q.coordinate t id a = q.coordinate s id a := by
  have hwritten : q.written t = q.written s := by
    funext b
    cases b <;> simp only [written, Session.across?, Session.down?, hconfig]
  simp only [coordinate, ruledPosition, Session.shown, hwritten, hsheet, hstore, hconfig]

/-- What happens beside the widget and its control is no matter. -/
theorem Lands.keep (hq : q.Lands s) (hw : t.screen.widget? q.widget = s.screen.widget? q.widget)
    (hc : ∃ new, t.controls = s.controls ++ new ∧ ∀ c ∈ new, ¬ c.Owns q.widget)
    (hsheet : t.sheet = s.sheet) (hstore : t.store = s.store) (hconfig : t.config = s.config) :
    q.Lands t := by
  obtain ⟨id, hgoes, p, hlies, hp⟩ := hq
  obtain ⟨new, he, hnew⟩ := hc
  refine ⟨id, ?_, p, hlies.congr hw, fun a => ?_⟩
  · unfold Goes
    rw [he]
    rcases hgoes with ⟨c, hc, hid⟩ | ⟨hid, hnone, hunowned⟩
    · exact .inl ⟨c, List.mem_append_left _ hc, hid⟩
    · refine .inr ⟨hid, hnone, fun c hc => ?_⟩
      exact (List.mem_append.mp hc).elim (hunowned c) (hnew c)
  · rw [q.coordinate_congr hsheet hstore hconfig]
    exact hp a

/-- Building something else moves no widget that is there. -/
theorem Lands.extend (hq : q.Lands t) (hl : t.screen.isLive q.widget = true) (hb : Builds t u) :
    q.Lands u := by
  obtain ⟨w, hw⟩ := Screen.isLive_iff.mp hl
  obtain ⟨new, he, -, hnew⟩ := hb.controls
  refine hq.keep ((hb.screen.widget _ w hw).trans hw.symm) ⟨new, he, fun c hc ho => ?_⟩ ?_ ?_ ?_
  · rw [Screen.isLive, (hnew c hc).fresh _ ho] at hl
    cases hl
  · rw [hb.rest]
  · rw [hb.rest]
  · rw [hb.rest]

/-- Building something else leaves an element without a control. -/
theorem Bare.extend (hq : q.Bare t) (hl : t.screen.isLive q.widget = true) (hb : Builds t u) :
    q.Bare u where
  unnamed := hq.unnamed
  unowned c hc ho := by
    obtain ⟨new, he, -, hnew⟩ := hb.controls
    rw [he] at hc
    rcases List.mem_append.mp hc with hc | hc
    · exact hq.unowned c hc ho
    · rw [Screen.isLive, (hnew c hc).fresh _ ho] at hl
      cases hl
  visible hv := by
    obtain ⟨hk, w, hw, hshown⟩ := hq.visible hv
    exact ⟨hk, w, hb.screen.widget _ w hw, hshown⟩

end Site

theorem Control.Marks.congr {c : Control} {q : Site} {s t : Session} (hc : c.Marks q t)
    (hsheet : t.sheet = s.sheet) (hstore : t.store = s.store) : c.Marks q s :=
  { hc with zIndex := hc.zIndex.trans (q.level_congr hsheet hstore c.id) }

namespace Session

variable {s t u : Session} {q : Site} {ps qs : List Site} {P P' Q Q' : Handle → Prop}

theorem Builds.sheet (hb : Builds s t) : t.sheet = s.sheet := by
  rw [hb.rest]

theorem Records.nil (he : t.controls = s.controls)
    (hz : ∀ h, s.pendingZ.lookup h = none → t.pendingZ.lookup h = none) : Records [] s t where
  controls := ⟨[], by rw [he, List.append_nil], List.Sublist.slnil, by simp⟩
  served := by simp
  waiting h _ := hz h

theorem Records.trans (h₁ : Records ps s t) (h₂ : Records qs t u) (hsheet : t.sheet = s.sheet)
    (hstore : t.store = s.store) (hbare : ∀ q ∈ ps, q.Bare t → q.Bare u) :
    Records (ps ++ qs) s u where
  controls := by
    obtain ⟨new₁, he₁, hsub₁, hm₁⟩ := h₁.controls
    obtain ⟨new₂, he₂, hsub₂, hm₂⟩ := h₂.controls
    refine ⟨new₁ ++ new₂, by rw [he₂, he₁, List.append_assoc], ?_, fun c hc => ?_⟩
    · rw [List.map_append, List.map_append]
      exact hsub₁.append hsub₂
    · rcases List.mem_append.mp hc with hc | hc
      · obtain ⟨q, hq, hm⟩ := hm₁ c hc
        exact ⟨q, List.mem_append_left _ hq, hm⟩
      · obtain ⟨q, hq, hm⟩ := hm₂ c hc
        exact ⟨q, List.mem_append_right _ hq, hm.congr hsheet hstore⟩
  served q hq := by
    rcases List.mem_append.mp hq with hq | hq
    · rcases h₁.served q hq with ⟨c, hc, hm⟩ | hb
      · obtain ⟨new, he, -⟩ := h₂.controls
        exact .inl ⟨c, he ▸ List.mem_append_left _ hc, hm⟩
      · exact .inr (hbare q hq hb)
    · refine (h₂.served q hq).imp_left fun ⟨c, hc, hm⟩ => ?_
      exact ⟨c, hc, hm.congr hsheet hstore⟩
  waiting h hh hz := by
    rw [List.map_append, List.mem_append, not_or] at hh
    exact h₂.waiting h hh.2 (h₁.waiting h hh.1 hz)

theorem map_planting (qs : List Site) : (qs.map Site.planting).map (·.2) = qs.map Site.widget := by
  rw [List.map_map]
  rfl

theorem below_planting (qs : List Site) (h : Handle) :
    Screen.below (qs.map Site.planting) h = (qs.filter (·.parent = h)).map Site.widget := by
  rw [Screen.below, List.filter_map, List.map_map]
  rfl

theorem Seats.isLive (hf : Seats P Q qs s t) (hq : q ∈ qs) : t.screen.isLive q.widget = true := by
  refine hf.plants.isLive ?_
  rw [map_planting]
  exact List.mem_map_of_mem hq

/-- Nothing waits for a widget that is not there. -/
theorem Seats.waits (hf : Seats P Q qs s t) (hz : s.Waits) : t.Waits := by
  intro h hh
  have hdead {k : Handle} (hl : t.screen.isLive k = true) : k ≠ h := fun he =>
    Bool.eq_false_iff.mp hh (he ▸ hl)
  refine hf.records.waiting h (fun hin => ?_) (hz h ?_)
  · obtain ⟨q, hq, he⟩ := List.mem_map.mp hin
    exact hdead (hf.isLive hq) he
  · exact Bool.eq_false_iff.mpr fun hl => hdead (hf.plants.live h hl) rfl

theorem Fills.trans (h₁ : Fills P Q ps s t) (h₂ : Fills P' Q' qs t u)
    (hP : ∀ k, s.screen.isLive k = true → P' k → P k) (hQ : ∀ k, Q' k → Q k) :
    Fills P Q (ps ++ qs) s u where
  builds := h₁.builds.trans h₂.builds
  plants := by
    rw [List.map_append]
    exact h₁.plants.trans h₂.plants hP hQ
  records := h₁.records.trans h₂.records h₁.builds.sheet h₁.builds.store
    fun _ hq hb => hb.extend (h₁.isLive hq) h₂.builds
  lands q hq hk hu := by
    rcases List.mem_append.mp hq with hq | hq
    · exact (h₁.lands q hq hk hu).extend (h₁.isLive hq) h₂.builds
    · exact h₂.lands q hq hk hu

theorem Fills.mono (hf : Fills P Q qs s t) (hP : ∀ k, s.screen.isLive k = true → P k → P' k) :
    Fills P' Q qs s t :=
  { hf with plants := hf.plants.mono hP }

theorem Fills.refl (hs : s.WellFormed) : Fills P Q [] s s where
  plants := Screen.Plants.refl hs.screen.toSound
  records := Records.nil rfl fun _ hz => hz
  lands := by simp
  builds := Builds.refl hs.screen

end Session
end ScreenMarkup
