import ScreenMarkup.Proofs.Session.Document
import ScreenMarkup.Proofs.Session.Layout
import ScreenMarkup.Proofs.Session.Sites
import ScreenMarkup.Proofs.Style.Cascade

/-!
# Building a site

A builder makes the widget of its site, works on it, and last records the
control. What happens in between touches no other widget; of what the session
has to remember it changes the next id and the z-index that waits for the new
widget.
-/

set_option autoImplicit false

namespace ScreenMarkup

/-- The attributes that the builder of a site goes on with: those that are written, perhaps with a
generated id. An element that stays without an id needs none to follow its visibility. -/
structure Site.Named (q : Site) (a : WidgetAttrs) : Prop where
  same : a = { q.attrs with id := a.id }
  written : q.attrs.id ≠ "" ∨ q.kind = .tabs → a.id = q.attrs.id
  unnamed : a.id = "" → q.attrs.id = "" ∧ q.attrs.hasBoundVisibility = false

/-- The control has the attributes. -/
structure Control.Bears (c : Control) (q : Site) (a : WidgetAttrs) : Prop where
  kind : c.kind = q.kind
  target : c.target = q.widget
  id : c.id = a.id
  visible : c.visibleBind = (a.control q.kind q.widget).visibleBind
  zIndex : c.zIndex = a.zIndex

namespace Session

variable {s t u : Session} {h parent : Handle} {q : Site} {z : Option Int} {c : Control}
  {e : Element} {a a' : WidgetAttrs} {kind : ControlKind} {needed : Bool}

/-- The widget of the site is made, and `z` waits for its control. -/
structure Works (q : Site) (z : Option Int) (s t : Session) : Prop where
  sprouts : s.screen.Sprouts q.parent q.widget t.screen
  rest : t = { s with screen := t.screen, pendingZ := t.pendingZ, autoId := t.autoId }
  waiting : ∀ h, t.pendingZ.lookup h = if h = q.widget then z else s.pendingZ.lookup h

theorem Works.controls (hd : Works q z s t) : t.controls = s.controls := by
  rw [hd.rest]

theorem Works.store (hd : Works q z s t) : t.store = s.store := by
  rw [hd.rest]

theorem Works.sheet (hd : Works q z s t) : t.sheet = s.sheet := by
  rw [hd.rest]

theorem Works.config (hd : Works q z s t) : t.config = s.config := by
  rw [hd.rest]

theorem Works.unowned (hs : s.WellFormed) (hd : Works q z s t) :
    ∀ c ∈ t.controls, ¬ c.Owns q.widget := by
  rw [hd.controls]
  exact hs.unclaimed (by simpa [Screen.isLive] using hd.sprouts.fresh)

/-! ## Ids -/

theorem withId_eq (hw : s.withId a kind needed = (a', t)) :
    ∃ n, t = { s with autoId := n } := by
  unfold withId at hw
  split at hw
  · cases hw
    exact ⟨s.autoId + 1, rfl⟩
  · cases hw
    exact ⟨s.autoId, rfl⟩

theorem withId_named (hw : s.withId q.attrs kind needed = (a', t)) (hk : q.kind ≠ .tabs) :
    q.Named a' := by
  unfold withId at hw
  split at hw
  · next hnew =>
    cases hw
    refine ⟨rfl, fun hid => ?_, fun hid => ?_⟩
    · simp [hid.resolve_right hk] at hnew
    · cases kind <;> simp [ControlKind.idStem] at hid
  · next hold =>
    cases hw
    refine ⟨rfl, fun _ => rfl, fun hid => ⟨hid, ?_⟩⟩
    simp only [hid, decide_true, Bool.true_and, Bool.or_eq_true, not_or, Bool.not_eq_true] at hold
    exact hold.2

/-! ## The widget -/

theorem siteOf_eq (kind : ControlKind) (ht : ∃ n, t = { s with autoId := n })
    (hc : t.create kind.widget parent = (h, u)) :
    s.siteOf kind e parent = ⟨kind, e, parent, h⟩ := by
  obtain ⟨n, rfl⟩ := ht
  rw [create_eq] at hc
  cases hc
  rfl

theorem works_create (hs : s.WellFormed) (hz : s.Waits) (hp : s.screen.isLive parent = true)
    (ht : ∃ n, t = { s with autoId := n }) (hc : t.create kind.widget parent = (h, u)) :
    Works ⟨kind, e, parent, h⟩ none s u := by
  obtain ⟨n, rfl⟩ := ht
  rw [create_eq] at hc
  cases hc
  have hsprouts := Screen.sprouts_create hs.screen.toSound kind.widget hp
  refine ⟨hsprouts, rfl, fun k => ?_⟩
  split
  · next hk =>
    rw [hk]
    exact hz _ hsprouts.fresh
  · rfl

theorem Works.touch {H : Handle → Prop} {R : Widget → Widget → Prop} {v : Screen}
    (hd : Works q z s t) (ht : Screen.Touches H R t.screen v) :
    Works q z s { t with screen := v } where
  sprouts := hd.sprouts.touch ht
  rest := by
    conv_lhs => rw [hd.rest]
  waiting := hd.waiting

theorem Works.mapScreen {H : Handle → Prop} {R : Widget → Widget → Prop} {f : Screen → Screen}
    (hd : Works q z s t) (ht : Screen.Touches H R t.screen (f t.screen)) :
    Works q z s (t.mapScreen f) :=
  hd.touch ht

theorem Works.modify (hd : Works q z s t) (h : Handle) (f : Widget → Widget) :
    Works q z s (t.mapScreen (·.modify h f)) :=
  hd.touch (Screen.touches_modify (P := fun _ _ => True) (fun _ => trivial) fun _ => trivial)

theorem Works.ite {p : Prop} [Decidable p] (hd : Works q z s t) (hu : Works q z s u) :
    Works q z s (if p then u else t) := by
  split
  · exact hu
  · exact hd

theorem Works.withId (hd : Works q z s t) (hw : t.withId a kind needed = (a', u)) :
    Works q z s u := by
  obtain ⟨n, rfl⟩ := withId_eq hw
  exact
    { sprouts := hd.sprouts
      rest := by
        conv_lhs => rw [hd.rest]
      waiting := hd.waiting }

/-- Something is made inside of the widget. -/
theorem Works.inside (hd : Works q z s t) {kind : WidgetKind}
    (hc : t.create kind q.widget = (h, u)) : Works q z s u ∧ s.screen.isLive h = false := by
  rw [create_eq] at hc
  cases hc
  refine ⟨⟨hd.sprouts.create kind, ?_, hd.waiting⟩, ?_⟩
  · conv_lhs => rw [hd.rest]
  · rw [Bool.eq_false_iff]
    intro hl
    have hlive := hd.sprouts.live _ (.inl hl)
    rw [Screen.isLive, hd.sprouts.sound.create_fresh] at hlive
    cases hlive

theorem lies_create (hs : s.WellFormed) (ht : ∃ n, t = { s with autoId := n })
    {kind : WidgetKind} (hc : t.create kind parent = (h, u)) : u.screen.Lies h {} := by
  obtain ⟨n, rfl⟩ := ht
  rw [create_eq] at hc
  cases hc
  refine ⟨Widget.new kind, ?_, rfl, rfl⟩
  rw [hs.screen.toSound.widget?_create, if_pos rfl]

/-- What is made inside of the widget is another one and does not move it. -/
theorem Works.lies_inside (hd : Works q z s t) {p : Offset} (hl : t.screen.Lies q.widget p)
    {kind : WidgetKind} (hc : t.create kind q.widget = (h, u)) :
    u.screen.Lies q.widget p ∧ q.widget ≠ h := by
  rw [create_eq] at hc
  cases hc
  have hne : q.widget ≠ (t.screen.create kind q.widget).1 := fun he => by
    have hlive := hl.isLive
    rw [he, Screen.isLive, hd.sprouts.sound.create_fresh] at hlive
    cases hlive
  refine ⟨hl.congr ?_, hne⟩
  rw [hd.sprouts.sound.widget?_create, if_neg hne]

/-- The z-index that the rules give waits for the control. -/
theorem Works.applyRules (hs : s.WellFormed) (hd : Works q none s t) (hk : q.kind = kind)
    (ha : a.classes = q.attrs.classes) {id : String} (hid : a.id = q.selector id) :
    Works q (q.ruled s id) s (t.applyRules q.widget kind a) := by
  have hunowned : Controls.widgetIndex? t.controls q.widget = none := by
    refine List.findIdx?_eq_none_iff.mpr fun c hc => ?_
    simpa [Control.Owns] using hd.unowned hs c hc
  have hz := t.screen.applyRules_zIndex q.widget t.sheet kind.tag a.id
    (if a.hasBoundClasses then t.shown a.classes else a.classes) t.config.screen
  have hruled : q.ruled s id =
      (t.sheet.resolve? kind.tag a.id (if a.hasBoundClasses then t.shown a.classes else a.classes)
        "z-index").map fun v => Numeric.leadingInt v.toList := by
    rw [Site.ruled, WidgetAttrs.hasBoundClasses, WidgetAttrs.hasBoundClasses, ha, hid, hk, hd.sheet,
      shown, shown, hd.store]
  unfold Session.applyRules
  extract_lets classes
  have hr := Screen.applyRules_restyles t.screen q.widget t.sheet kind.tag a.id classes
    t.config.screen
  rw [← hruled] at hz
  change (t.screen.applyRules q.widget t.sheet kind.tag a.id classes t.config.screen).1 = _ at hz
  generalize t.screen.applyRules q.widget t.sheet kind.tag a.id classes t.config.screen = step
    at hr hz
  obtain ⟨z, v⟩ := step
  dsimp only at hz hr
  rw [← hz]
  have hstyled := hd.touch hr
  cases z with
  | none => exact hstyled
  | some z =>
    show Works q (some z) s (Session.keepZIndex _ q.widget z)
    unfold keepZIndex
    rw [show Controls.widgetIndex? ({ t with screen := v } : Session).controls q.widget = none
      from hunowned]
    exact
      { sprouts := hstyled.sprouts
        rest := by
          conv_lhs => rw [hstyled.rest]
        waiting := fun k => by
          rw [lookup_cons_if, lookup_filter_ne, hstyled.waiting]
          by_cases hk : k = q.widget
          · rw [if_pos hk, if_pos hk]
          · rw [if_neg hk, if_neg hk, if_neg hk, if_neg hk] }

theorem applyRules_screen (s : Session) (h : Handle) (kind : ControlKind) (a : WidgetAttrs) :
    (s.applyRules h kind a).screen = (s.screen.applyRules h s.sheet kind.tag a.id
      (if a.hasBoundClasses then s.shown a.classes else a.classes) s.config.screen).2 := by
  unfold Session.applyRules
  extract_lets classes
  split
  next z v hr =>
  rw [hr]
  cases z with
  | none => rfl
  | some z =>
    dsimp only [keepZIndex]
    split <;> rfl

/-- The rules move the widget in the axes in which they give a position. -/
theorem Works.lies_applyRules (hd : Works q z s t) {p : Offset} (hl : t.screen.Lies q.widget p)
    (hk : q.kind = kind) (ha : a.classes = q.attrs.classes) {id : String}
    (hid : a.id = q.selector id) :
    (t.applyRules q.widget kind a).screen.Lies q.widget (p.moved (q.ruledPosition s id)) := by
  have hruled : q.ruledPosition s id = t.sheet.position? kind.tag a.id
      (if a.hasBoundClasses then t.shown a.classes else a.classes) t.config.screen := by
    rw [Site.ruledPosition, WidgetAttrs.hasBoundClasses, WidgetAttrs.hasBoundClasses, ha, hid, hk,
      hd.sheet, shown, shown, hd.store, hd.config]
  rw [applyRules_screen, hruled]
  exact hl.applyRules t.sheet kind.tag a.id _ t.config.screen

theorem Works.place (hd : Works q z s t) (h : Handle) (e : Element) :
    Works q z s (t.place h e) :=
  hd.touch (place_restyles t h e)

theorem Works.sizeLabel (hd : Works q z s t) (h : Handle) (e : Element) :
    Works q z s (t.sizeLabel h e) := by
  obtain ⟨v, hv, he⟩ := t.sizeLabel_restyles h e
  rw [he]
  exact hd.touch hv

theorem Works.alignLabel (hd : Works q z s t) (h : Handle) (e : Element) :
    Works q z s (t.alignLabel h e) := by
  obtain ⟨v, hv, he⟩ := t.alignLabel_restyles h e
  rw [he]
  exact hd.touch hv

theorem hideForGood_touches (s : Session) (h : Handle) (a : WidgetAttrs) :
    ∃ v, Screen.Touches (· = h) Widget.SameKind s.screen v ∧
      s.hideForGood h a = { s with screen := v } := by
  unfold hideForGood
  split
  · exact ⟨s.screen.setHidden h true, Screen.touches_modify (fun _ => rfl) fun _ => rfl, rfl⟩
  · exact ⟨s.screen, Screen.Touches.refl (P := Widget.SameKind) (fun _ => rfl) s.screen, rfl⟩

theorem Works.hideForGood (hd : Works q z s t) (h : Handle) (a : WidgetAttrs) :
    Works q z s (t.hideForGood h a) := by
  obtain ⟨v, hv, he⟩ := t.hideForGood_touches h a
  rw [he]
  exact hd.touch hv

/-! ## Where the widget lies -/

section Lying

variable {k : Handle} {p : Offset}

theorem lies_sizeLabel (hl : s.screen.Lies h p) (k : Handle) (e : Element) :
    (s.sizeLabel k e).screen.Lies h p := by
  unfold Session.sizeLabel
  extract_lets w n
  split
  · have hsized : (s.screen.resize k w n).Lies h p := hl.resize k w n
    exact hsized.ite (hsized.configure k _)
  · exact hl

theorem lies_alignLabel (hl : s.screen.Lies h p) (k : Handle) (e : Element) :
    (s.alignLabel k e).screen.Lies h p := by
  unfold Session.alignLabel
  extract_lets horizontal n
  have haligned := hl.ite (c := horizontal ≠ "left")
    (hl.applyStyle k (.textAlign (TextAlign.ofKeyword horizontal)))
  exact haligned.ite (haligned.alignText k (labelValign e) n)

theorem lies_hideForGood (hl : s.screen.Lies h p) (k : Handle) (a : WidgetAttrs) :
    (s.hideForGood k a).screen.Lies h p := by
  unfold Session.hideForGood
  split
  · exact hl.setHidden k true
  · exact hl

/-- An element without an alignment is placed as soon as one coordinate is written, and the other
one counts as zero then. -/
theorem lies_place (hl : s.screen.Lies h p) (ha : e.attr "align" = "") (hv : e.attr "valign" = "") :
    (s.place h e).screen.Lies h
      (if (s.across? e "x").isSome || (s.down? e "y").isSome then
        ⟨(s.across? e "x").getD 0, (s.down? e "y").getD 0⟩
      else p) := by
  unfold Session.place
  extract_lets align valign x? y? aligned
  have hnone : aligned = false := by
    simp [aligned, align, valign, ha, hv]
  rw [hnone]
  change Screen.Lies _ h (if x?.isSome || y?.isSome then ⟨x?.getD 0, y?.getD 0⟩ else p)
  cases x? with
  | none =>
    cases y? with
    | none => exact hl
    | some y => exact hl.setPos 0 y
  | some x =>
    cases y? with
    | none => exact hl.setPos x 0
    | some y => exact hl.setPos x y

/-- Text is placed by its coordinates. -/
theorem Works.lies_place (hd : Works q z s t) (hk : q.kind.isText = true) (hu : q.Unaligned)
    {id : String} (hl : t.screen.Lies q.widget (Offset.moved {} (q.ruledPosition s id))) :
    ∃ p, (t.place q.widget q.element).screen.Lies q.widget p ∧
      ∀ b : Axis, b.part p = q.coordinate s id b := by
  have hx : t.across? q.element "x" = q.written s .across := by
    rw [across?, hd.config]
    rfl
  have hy : t.down? q.element "y" = q.written s .down := by
    rw [down?, hd.config]
    rfl
  have hplace := Session.lies_place hl hu.1 hu.2
  rw [hx, hy] at hplace
  refine ⟨_, hplace, fun b => ?_⟩
  rw [Site.coordinate, hk]
  cases hx : q.written s .across <;> cases hy : q.written s .down <;> cases b <;>
    simp [hx, hy, Axis.part, Axis.other, Offset.moved]

/-- What is not placed like text keeps the position of the rules in the axes that are not written. -/
theorem Works.lies_applyInline (hd : Works q z s t) (hk : q.kind.isText = false) {id : String}
    (hl : t.screen.Lies q.widget (Offset.moved {} (q.ruledPosition s id))) (text : Handle)
    {i : Inline} (hx : i.x = t.across? q.element "x") (hy : i.y = t.down? q.element "y") :
    ∃ p, (t.screen.applyInline q.widget text i).Lies q.widget p ∧
      ∀ b : Axis, b.part p = q.coordinate s id b := by
  refine ⟨_, hl.applyInline text i, fun b => ?_⟩
  rw [Site.coordinate, hk, hx, hy, across?, down?, hd.config]
  cases b <;> rfl

end Lying

/-! ## The control -/

theorem Works.waits (hd : Works q z s t) (hz : s.Waits) : t.Waits := by
  intro h hh
  have hdead : ¬ (s.screen.isLive h = true ∨ h = q.widget) := fun hl =>
    Bool.eq_false_iff.mp hh (hd.sprouts.live h hl)
  rw [not_or, Bool.not_eq_true] at hdead
  rw [hd.waiting, if_neg hdead.2]
  exact hz h hdead.1

/-- What waits for a control of the site is what waits for its widget. -/
theorem Works.claimed (hd : Works q z s t) (hz : s.Waits) (hc : c.target = q.widget)
    (hobj : c.obj = q.widget ∨ s.screen.isLive c.obj = false) : t.claimed c = z := by
  have hwidget : t.pendingZ.lookup q.widget = z := by
    rw [hd.waiting, if_pos rfl]
  unfold Session.claimed
  cases ho : c.outer with
  | none =>
    rw [Control.target, ho, Option.getD_none] at hc
    rw [hc, hwidget, Option.bind_none, Option.or_none]
  | some o =>
    rw [Control.target, ho, Option.getD_some] at hc
    rw [Option.bind_some, hc, hwidget]
    by_cases hsame : c.obj = q.widget
    · rw [hsame, hwidget, Option.or_self]
    · rw [hd.waiting, if_neg hsame, hz _ (hobj.resolve_left hsame), Option.none_or]

/-- The control of a site is recorded if it has an id. -/
theorem register_records (hc : c.Bears q a) (hsame : a = { q.attrs with id := a.id })
    (hid : q.attrs.id ≠ "" ∨ q.kind = .tabs → a.id = q.attrs.id)
    (hlevel : (t.claimed c).getD q.attrs.zIndex = q.level t a.id)
    (hbare : a.id = "" → q.Bare t) : Records [q] t (t.register c).2 := by
  by_cases hcid : c.id = ""
  · rw [register, if_pos hcid]
    exact
      { controls := ⟨[], by simp, List.nil_sublist _, by simp⟩
        served := fun p hp => by
          rw [List.mem_singleton.mp hp]
          exact .inr (hbare (hc.id ▸ hcid))
        waiting := fun _ _ hz => hz }
  · obtain ⟨waiting, he, hwaiting⟩ := t.register_claims c hcid
    have hmarks : ({ c with zIndex := (t.claimed c).getD c.zIndex } : Control).Marks q t :=
      { kind := hc.kind
        target := hc.target
        named := hcid
        id := fun hq => hc.id.trans (hid hq)
        visible := by
          show c.visibleBind = _
          rw [hc.visible, hsame]
          rfl
        zIndex := by
          show (t.claimed c).getD c.zIndex = q.level t c.id
          rw [hc.zIndex, hc.id, ← hlevel, hsame] }
    rw [he]
    exact
      { controls := ⟨_, rfl, by rw [List.map_singleton, List.map_singleton, ← hc.target]; rfl,
          fun d hd => by
            rw [List.mem_singleton.mp hd]
            exact ⟨q, List.mem_singleton_self q, hmarks⟩⟩
        served := fun p hp => by
          rw [List.mem_singleton.mp hp]
          exact .inl ⟨_, List.mem_concat_self, hmarks⟩
        waiting := fun h _ hz => hwaiting h hz }

theorem registerWith_eq (s : Session) (c : Control) (h : Handle) (kinds : List EventKind)
    (listener : Nat → Listener) :
    ∃ r, s.registerWith c h kinds listener = { (s.register c).2 with router := r } := by
  unfold registerWith
  cases s.register c with
  | mk i u =>
    cases i with
    | none => exact ⟨u.router, rfl⟩
    | some i => exact ⟨u.router.onAll h kinds (listener i), rfl⟩

/-- The widget is planted and the control recorded. -/
theorem Works.seats (hs : s.WellFormed) (hp : s.screen.isLive q.parent = true)
    (hd : Works q z s t) {H : Handle → Prop} {R : Widget → Widget → Prop}
    (hu : Screen.Touches H R t.screen u.screen) (hr : Records [q] t u) :
    s.screen.Plants (· = q.parent) (fun _ => False) ([q].map Site.planting) u.screen ∧
      Records [q] s u := by
  refine ⟨(hd.sprouts.plants hs.screen.toSound hp).touch hu, ?_⟩
  exact
    { controls := by
        obtain ⟨new, he, hsub, hm⟩ := hr.controls
        refine ⟨new, hd.controls ▸ he, hsub, fun c hc => ?_⟩
        obtain ⟨p, hp, hmarks⟩ := hm c hc
        exact ⟨p, hp, hmarks.congr hd.sheet hd.store⟩
      served := fun p hp => (hr.served p hp).imp_left fun ⟨c, hc, hm⟩ =>
        ⟨c, hc, hm.congr hd.sheet hd.store⟩
      waiting := fun h hh hz => hr.waiting h hh <| by
        rw [hd.waiting, if_neg fun he => hh (List.mem_singleton.mpr he), hz] }

theorem Works.register_records (hs : s.WellFormed) (hz : s.Waits) (hd : Works q z s t)
    (hc : c.Bears q a) (ha : q.Named a) (hobj : c.obj = q.widget ∨ s.screen.isLive c.obj = false)
    (hlevel : z.getD q.attrs.zIndex = q.level s a.id) : Records [q] t (t.register c).2 := by
  refine Session.register_records hc ha.same ha.written ?_ fun hid => ?_
  · rw [hd.claimed hz hc.target hobj, q.level_congr hd.sheet hd.store]
    exact hlevel
  · obtain ⟨hnone, hv⟩ := ha.unnamed hid
    exact ⟨hnone, hd.unowned hs, fun hb => by rw [hv] at hb; cases hb⟩

/-- The widget of a site is finished, and `c` is the control that is to be recorded for it. -/
structure Crafted (q : Site) (a : WidgetAttrs) (c : Control) (s t : Session) : Prop where
  works : ∃ z, Works q z s t ∧ z.getD q.attrs.zIndex = q.level s a.id
  bears : c.Bears q a
  named : q.Named a
  obj : c.obj = q.widget ∨ s.screen.isLive c.obj = false
  lies : q.kind.isRuled = true → q.Unaligned →
    ∃ p, t.screen.Lies q.widget p ∧ ∀ b : Axis, b.part p = q.coordinate s a.id b

/-- A builder finishes the widget of the site and has its control recorded. -/
def Crafts (q : Site) (s u : Session) : Prop :=
  ∃ a c t r, Crafted q a c s t ∧ u = { (t.register c).2 with router := r }

theorem Crafted.register (hd : Crafted q a c s t) : Crafts q s (t.register c).2 :=
  ⟨a, c, t, _, hd, rfl⟩

theorem Crafted.registerWith (hd : Crafted q a c s t) (h : Handle) (kinds : List EventKind)
    (listener : Nat → Listener) : Crafts q s (t.registerWith c h kinds listener) := by
  obtain ⟨r, he⟩ := t.registerWith_eq c h kinds listener
  exact ⟨a, c, t, r, hd, he⟩

/-- To record the control moves nothing. -/
theorem lies_register {p : Offset} (hl : t.screen.Lies h p) (c : Control) :
    (t.register c).2.screen.Lies h p := by
  by_cases hid : c.id = ""
  · rw [register, if_pos hid]
    exact hl
  · obtain ⟨z, waiting, he⟩ := t.register_eq c hid
    rw [he]
    exact hl.ite (hl.setHidden c.target true)

theorem Crafted.goes (hs : s.WellFormed) (hd : Crafted q a c s t) :
    q.Goes a.id (t.register c).2 := by
  obtain ⟨z, hw, -⟩ := hd.works
  by_cases hid : c.id = ""
  · rw [Session.register, if_pos hid]
    have hnone : a.id = "" := hd.bears.id ▸ hid
    exact .inr ⟨hnone, (hd.named.unnamed hnone).1, hw.unowned hs⟩
  · obtain ⟨z, waiting, he⟩ := t.register_eq c hid
    rw [he]
    exact .inl ⟨_, List.mem_concat_self, hd.bears.target, hd.bears.id⟩

theorem Crafted.lands (hs : s.WellFormed) (hd : Crafted q a c s t) (hk : q.kind.isRuled = true)
    (hu : q.Unaligned) : q.Lands (t.register c).2 := by
  obtain ⟨z, hw, -⟩ := hd.works
  obtain ⟨p, hl, hp⟩ := hd.lies hk hu
  refine ⟨a.id, hd.goes hs, p, lies_register hl c, fun b => (hp b).trans ?_⟩
  have hrest : (t.register c).2.sheet = t.sheet ∧ (t.register c).2.store = t.store ∧
      (t.register c).2.config = t.config := by
    by_cases hid : c.id = ""
    · rw [Session.register, if_pos hid]
      exact ⟨rfl, rfl, rfl⟩
    · obtain ⟨z, waiting, he⟩ := t.register_eq c hid
      rw [he]
      exact ⟨rfl, rfl, rfl⟩
  exact (q.coordinate_congr (hrest.1.trans hw.sheet) (hrest.2.1.trans hw.store)
    (hrest.2.2.trans hw.config) a.id b).symm

theorem Crafts.seats (hs : s.WellFormed) (hz : s.Waits) (hp : s.screen.isLive q.parent = true)
    (hc : Crafts q s u) : SeatsIn q.parent [q] s u := by
  obtain ⟨a, c, t, r, hd, rfl⟩ := hc
  obtain ⟨z, hw, hlevel⟩ := hd.works
  obtain ⟨hplants, hrecords⟩ := hw.seats hs hp (t.register_touches c)
    (hw.register_records hs hz hd.bears hd.named hd.obj hlevel)
  refine ⟨hplants, ⟨hrecords.controls, fun p hp => ?_, hrecords.waiting⟩, fun p hp hk hu => ?_⟩
  · exact (hrecords.served p hp).imp_right fun hb => ⟨hb.unnamed, hb.unowned, hb.visible⟩
  · rw [List.mem_singleton.mp hp] at hk hu ⊢
    exact hd.lands hs hk hu

/-- A widget that is deleted again leaves nothing. -/
theorem Works.discard (hs : s.WellFormed) (hd : Works q none s t)
    (hb : t.screen.branch? q.widget = some (Branch.leaf q.widget)) :
    SeatsIn q.parent ([q].filter fun p =>
      (t.mapScreen (·.delete q.widget)).screen.isLive p.widget) s
        (t.mapScreen (·.delete q.widget)) := by
  have hdead : (t.screen.delete q.widget).isLive q.widget = false := by
    have hscreen : q.widget ≠ Handle.screen := (hd.sprouts.ne hs.screen.toSound.screen_live).symm
    have hin : q.widget ∈ (Branch.leaf q.widget).handles := List.mem_singleton.mpr rfl
    rw [Screen.isLive, hd.sprouts.sound.widget?_delete hscreen hb, if_pos hin]
    rfl
  have hnone : ([q].filter fun p : Site =>
      (t.mapScreen (·.delete q.widget)).screen.isLive p.widget) = [] :=
    List.filter_eq_nil_iff.mpr fun p hp => by
      rw [List.mem_singleton.mp hp]
      exact Bool.eq_false_iff.mp hdead
  rw [hnone]
  refine ⟨hd.sprouts.discard hs.screen.toSound hb, Records.nil hd.controls fun h hz => ?_, by simp⟩
  show t.pendingZ.lookup h = none
  rw [hd.waiting, hz, ite_self]

/-- The widget of a site that is seated was not left out. -/
theorem Seats.made {P Q : Handle → Prop} (hr : Seats P Q [q] s t) :
    Seats P Q ([q].filter fun q => t.screen.isLive q.widget) s t := by
  have hall : ([q].filter fun q => t.screen.isLive q.widget) = [q] :=
    List.filter_eq_self.mpr fun p hp => hr.isLive hp
  rw [hall]
  exact hr

end Session
end ScreenMarkup
