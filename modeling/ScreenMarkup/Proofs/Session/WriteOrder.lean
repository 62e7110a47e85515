import ScreenMarkup.Proofs.Session.WritePaths

/-!
# The order of two writes

Writes of two variables can change places as far as the variables, and all
that widgets show but their colors, go. New classes style a widget from scratch
and so take away the colors that a binding gave it before: the order decides
the colors of a control whose classes depend on one of the variables while the
other one is bound to a color.
-/

set_option autoImplicit false

namespace ScreenMarkup

namespace Style

/-- The style but for its colors. -/
def uncolored (s : Style) : Style :=
  { s with textColor := none, bgColor := none, bgOpacity := none }

/-- The colors of a style. -/
def colors (s : Style) : Option Nat × Option Nat × Option Nat :=
  (s.textColor, s.bgColor, s.bgOpacity)

theorem eq_of_colors {s t : Style} (hu : s.uncolored = t.uncolored) (hc : s.colors = t.colors) :
    s = t := by
  cases s
  cases t
  simp_all [uncolored, colors]

@[simp] theorem recolor_none (s : Style) : s.recolor none none = s := rfl

@[simp] theorem uncolored_recolor (s : Style) (color background : Option Nat) :
    (s.recolor color background).uncolored = s.uncolored := rfl

/-- Colors that are not both of the text, and not both of the background, can change places. -/
theorem recolor_comm {s : Style} {c d b e : Option Nat} (hc : c = none ∨ d = none)
    (hb : b = none ∨ e = none) : (s.recolor c b).recolor d e = (s.recolor d e).recolor c b := by
  rcases hc with rfl | rfl <;> rcases hb with rfl | rfl <;> simp [recolor]

end Style

namespace Widget

/-- The widget but for its colors. -/
def uncolored (w : Widget) : Widget := { w with style := w.style.uncolored }

theorem eq_of_uncolored {w v : Widget} (hu : w.uncolored = v.uncolored)
    (hs : w.style = v.style) : w = v := by
  cases w
  cases v
  simp_all [uncolored]

end Widget

namespace Control

/-- The classes of the control depend on the variable. -/
def ClassesUse (c : Control) (name : String) : Prop :=
  ∃ t, c.classTemplate = some t ∧ Template.mentions t name = true

/-- One of the variables decides the classes, and the other one a color or, on a control with a
widget around it, the classes too. -/
def Mixes (c : Control) (a b : String) : Prop :=
  (c.ClassesUse a ∧ (c.colorBind = some b ∨ c.bgcolorBind = some b)) ∨
  (c.ClassesUse b ∧ (c.colorBind = some a ∨ c.bgcolorBind = some a)) ∨
  (c.outer.isSome = true ∧ c.ClassesUse a ∧ c.ClassesUse b)

end Control

namespace Refresh

variable {p q r : Refresh} {u : Store} {c : Control} {k : Handle} {template : Option String}

/-- Refreshes for two variables, each from the store after one write, that lead to one store. -/
structure Diamond (p q : Refresh) (u : Store) : Prop where
  ne : p.name ≠ q.name
  named : p.name ≠ "" ∧ q.name ≠ ""
  left : ∀ n, n ≠ q.name → p.store.text n = u.text n
  right : ∀ n, n ≠ p.name → q.store.text n = u.text n
  sheet : p.sheet = q.sheet
  size : p.size = q.size

theorem Diamond.symm (hd : Diamond p q u) : Diamond q p u :=
  ⟨hd.ne.symm, hd.named.symm, hd.right, hd.left, hd.sheet.symm, hd.size.symm⟩

theorem filled?_of_none (ha : r.affected? template = none) : r.filled? template = none := by
  rw [filled?, ha]
  rfl

theorem filled?_of_some {t : String} (ha : r.affected? template = some t) :
    r.filled? template = some (Template.render t r.store) := by
  rw [filled?, ha]
  rfl

/-- A template that depends on one of two variables only is filled in alike after both writes. -/
theorem Diamond.filled?_left (hd : Diamond p q u) (hq : q.affected? template = none) :
    p.filled? template = filled? { p with store := u } template := by
  cases ha : p.affected? template with
  | none => rw [filled?_of_none ha, filled?_of_none (r := { p with store := u }) ha]
  | some t =>
    rw [filled?_of_some ha, filled?_of_some (r := { p with store := u }) ha]
    congr 1
    refine Template.render_congr fun n hn => hd.left n ?_
    rintro rfl
    rcases hn with hn | hn
    · exact hd.named.2 hn
    · rw [(affected?_eq_some ha).1, affected?, Option.filter_some, if_pos hn] at hq
      cases hq

/-- Whichever variable is written last, a template is filled in alike. -/
theorem Diamond.filled?_or (hd : Diamond p q u) (template : Option String) :
    (filled? { q with store := u } template).or (p.filled? template) =
      (filled? { p with store := u } template).or (q.filled? template) := by
  cases hp : p.affected? template with
  | none =>
    rw [filled?_of_none hp, filled?_of_none (r := { p with store := u }) hp,
      ← hd.symm.filled?_left hp, Option.or_none, Option.none_or]
  | some t =>
    cases hq : q.affected? template with
    | none =>
      rw [filled?_of_none hq, filled?_of_none (r := { q with store := u }) hq,
        ← hd.filled?_left hq, Option.or_none, Option.none_or]
    | some t' =>
      have ht : t' = t := Option.some.inj
        ((affected?_eq_some hq).1.symm.trans (affected?_eq_some hp).1)
      rw [filled?_of_some (r := { q with store := u }) hq,
        filled?_of_some (r := { p with store := u }) hp, ht]
      rfl

/-! ## What is not color -/

theorem or_comm_of_none {α : Type} {x y : Option α} (h : x = none ∨ y = none) :
    y.or x = x.or y := by
  rcases h with rfl | rfl <;> simp

/-- Nothing is bound to both variables. -/
theorem Diamond.not_both (hd : Diamond p q u) (bind : Option String) :
    bind ≠ some p.name ∨ bind ≠ some q.name := by
  by_contra! hboth
  exact hd.ne (Option.some.inj (hboth.1.symm.trans hboth.2))

theorem Diamond.spansFor_or (hd : Diamond p q u) :
    (spansFor { q with store := u } c k).or (p.spansFor c k) =
      (spansFor { p with store := u } c k).or (q.spansFor c k) := by
  unfold spansFor newSpans?
  split
  · cases c.theme with
    | none => rfl
    | some theme => simp only [Option.bind_some, ← Option.map_or, hd.filled?_or]
  · rfl

theorem Diamond.textFor_or (hd : Diamond p q u) (hb : c.bind ≠ none → c.template = none) :
    (textFor { q with store := u } c k).or (p.textFor c k) =
      (textFor { p with store := u } c k).or (q.textFor c k) := by
  unfold textFor
  split
  · cases hbind : c.bind with
    | none =>
      unfold shownText?
      simp only [reduceCtorEq, false_and, if_false, ← Option.map_or, hd.filled?_or]
    | some n =>
      have hnone (r : Refresh) : r.shownText? c = none := by
        simp [shownText?, filled?, affected?, hb (by simp [hbind])]
      simp only [hnone]
      rw [or_comm_of_none]
      rcases hd.not_both c.bind with hn | hn <;> simp [← hbind, hn]
  · rfl

theorem Diamond.checkedFor_or (hd : Diamond p q u) :
    (q.checkedFor c k).or (p.checkedFor c k) = (p.checkedFor c k).or (q.checkedFor c k) := by
  apply or_comm_of_none
  rcases hd.not_both c.bind with hn | hn <;> simp [checkedFor, hn]

theorem Diamond.hiddenFor_or (hd : Diamond p q u) :
    (q.hiddenFor c k).or (p.hiddenFor c k) = (p.hiddenFor c k).or (q.hiddenFor c k) := by
  apply or_comm_of_none
  rcases hd.not_both c.visibleBind with hn | hn <;> simp [hiddenFor, hn]

theorem Diamond.valueFor_elim (hd : Diamond p q u) (low high value : Int) :
    let offered (o : Option Int) (value : Int) := o.elim value (Widget.offer low high value)
    offered (q.valueFor c k) (offered (p.valueFor c k) value) =
      offered (p.valueFor c k) (offered (q.valueFor c k) value) := by
  rcases hd.not_both c.bind with hn | hn <;> simp [valueFor, hn]

theorem Diamond.classesFor_or (hd : Diamond p q u) :
    (classesFor { q with store := u } c k).or (p.classesFor c k) =
      (classesFor { p with store := u } c k).or (q.classesFor c k) := by
  unfold classesFor
  split
  · exact hd.filled?_or c.classTemplate
  · rfl

theorem Diamond.aligned_elim (hd : Diamond p q u) (aligned : Option (Align × Offset)) :
    (classesFor { q with store := u } c k).elim
        ((p.classesFor c k).elim aligned fun _ => none) (fun _ => none) =
      (classesFor { p with store := u } c k).elim
        ((q.classesFor c k).elim aligned fun _ => none) fun _ => none := by
  have hboth (x y : Option String) : x.elim (y.elim aligned fun _ => none) (fun _ => none) =
      (x.or y).elim aligned fun _ => none := by
    cases x <;> rfl
  rw [hboth, hboth, hd.classesFor_or]

/-- The style that the classes leave. -/
def based (r : Refresh) (c : Control) (k : Handle) (height : Int) (style : Style) : Style :=
  (r.classesFor c k).elim style fun classes =>
    r.sheet.styleOf c.kind.tag c.id classes r.size height

theorem styled_eq (r : Refresh) (c : Control) (k : Handle) (height : Int) (style : Style) :
    r.styled c k height style =
      (r.based c k height style).recolor (r.colorFor c k) (r.backgroundFor c k) := rfl

theorem Diamond.uncolored_styled (hd : Diamond p q u) (height : Int) (style : Style) :
    (styled { q with store := u } c k height (p.styled c k height style)).uncolored =
      (styled { p with store := u } c k height (q.styled c k height style)).uncolored := by
  have hboth (x y : Option String) (a b : Option Nat) (f : String → Style) :
      (x.elim ((y.elim style f).recolor a b) f).uncolored = ((x.or y).elim style f).uncolored := by
    cases x <;> rfl
  simp only [styled_eq, Style.uncolored_recolor, based, hd.sheet, hd.size]
  rw [hboth, hboth, hd.classesFor_or]
  rfl

/-- Two writes of different variables can change places but for the colors. -/
theorem Diamond.uncolored_redraw (hd : Diamond p q u) (hb : c.bind ≠ none → c.template = none)
    (w : Widget) :
    (redraw { q with store := u } c k (p.redraw c k w)).uncolored =
      (redraw { p with store := u } c k (q.redraw c k w)).uncolored := by
  have htext : (textFor { q with store := u } c k).getD ((p.textFor c k).getD w.text) =
      (textFor { p with store := u } c k).getD ((q.textFor c k).getD w.text) := by
    rw [← Option.getD_or, ← Option.getD_or, hd.textFor_or hb]
  have hspans : (spansFor { q with store := u } c k).getD ((p.spansFor c k).getD w.spans) =
      (spansFor { p with store := u } c k).getD ((q.spansFor c k).getD w.spans) := by
    rw [← Option.getD_or, ← Option.getD_or, hd.spansFor_or]
  have hchecked : (checkedFor { q with store := u } c k).getD ((p.checkedFor c k).getD w.checked) =
      (checkedFor { p with store := u } c k).getD ((q.checkedFor c k).getD w.checked) := by
    rw [← Option.getD_or, ← Option.getD_or]
    exact congrArg (·.getD w.checked) hd.checkedFor_or
  have hhidden : (hiddenFor { q with store := u } c k).getD ((p.hiddenFor c k).getD w.hidden) =
      (hiddenFor { p with store := u } c k).getD ((q.hiddenFor c k).getD w.hidden) := by
    rw [← Option.getD_or, ← Option.getD_or]
    exact congrArg (·.getD w.hidden) hd.hiddenFor_or
  have hvalue := hd.valueFor_elim (c := c) (k := k) w.low w.high w.value
  have haligned := hd.aligned_elim (c := c) (k := k) w.aligned
  have hstyle := hd.uncolored_styled (c := c) (k := k) w.rect.height w.style
  simp only [redraw, Widget.uncolored, htext, hspans, hchecked, hhidden, haligned, hstyle]
  rw [Widget.mk.injEq]
  simp only [true_and, and_true]
  exact hvalue

/-! ## Colors -/

variable {s : Style} {height : Int}

theorem colorFor_of_ne (hc : r.affected? c.classTemplate = none)
    (hcolor : c.colorBind ≠ some r.name) : r.colorFor c k = none := by
  simp [colorFor, ruledColor?, filled?_of_none hc, hcolor]

/-- A refresh that no class depends on recolors only. -/
theorem styled_of_unruled (hc : r.affected? c.classTemplate = none) :
    r.styled c k height s = s.recolor (r.colorFor c k) (r.backgroundFor c k) := by
  simp [styled, classesFor, filled?_of_none hc]

/-- A refresh that no class and no color of the control depends on leaves its style. -/
theorem styled_of_inert (hc : r.affected? c.classTemplate = none)
    (hcolor : c.colorBind ≠ some r.name) (hback : c.bgcolorBind ≠ some r.name) :
    r.styled c k height s = s := by
  simp [styled_of_unruled hc, colorFor_of_ne hc hcolor, backgroundFor, hback]

/-- Where no color depends on the variable, the classes alone decide the style. -/
theorem styled_of_uncolored (ho : c.outer.isSome = false) (hcolor : c.colorBind ≠ some r.name)
    (hback : c.bgcolorBind ≠ some r.name) :
    r.styled c k height s = r.based c k height s := by
  simp [styled_eq, colorFor, ruledColor?, ho, hcolor, backgroundFor, hback]

theorem Diamond.based_comm (hd : Diamond p q u) :
    based { q with store := u } c k height (p.based c k height s) =
      based { p with store := u } c k height (q.based c k height s) := by
  have hboth (x y : Option String) (f : String → Style) :
      x.elim (y.elim s f) f = (x.or y).elim s f := by
    cases x <;> rfl
  simp only [based, hd.sheet, hd.size]
  rw [hboth, hboth, hd.classesFor_or]
  rfl

theorem Diamond.styled_left (hd : Diamond p q u) (hq : q.affected? c.classTemplate = none) :
    p.styled c k height s = styled { p with store := u } c k height s := by
  have hfilled := hd.filled?_left hq
  simp only [styled, classesFor, colorFor, ruledColor?, hfilled]
  rfl

theorem classesUse_iff : r.affected? c.classTemplate ≠ none ↔ c.ClassesUse r.name := by
  rw [Option.ne_none_iff_exists']
  exact exists_congr fun t => Option.filter_eq_some_iff

/-- On a control that does not mix the variables, the styles are the same as well. -/
theorem Diamond.styled_comm (hd : Diamond p q u) (hm : ¬ c.Mixes p.name q.name) :
    styled { q with store := u } c k height (p.styled c k height s) =
      styled { p with store := u } c k height (q.styled c k height s) := by
  simp only [Control.Mixes, not_or, not_and, ← classesUse_iff] at hm
  obtain ⟨hleft, hright, houter⟩ := hm
  by_cases hp : p.affected? c.classTemplate = none
  · by_cases hq : q.affected? c.classTemplate = none
    · rw [← hd.styled_left hq, ← hd.symm.styled_left hp, styled_of_unruled hp, styled_of_unruled hq,
        styled_of_unruled hp, styled_of_unruled hq]
      apply Style.recolor_comm
      · rcases hd.not_both c.colorBind with hn | hn
        · exact .inl (colorFor_of_ne hp hn)
        · exact .inr (colorFor_of_ne hq hn)
      · rcases hd.not_both c.bgcolorBind with hn | hn
        · exact .inl (by simp [backgroundFor, hn])
        · exact .inr (by simp [backgroundFor, hn])
    · obtain ⟨hcolor, hback⟩ := hright hq
      rw [styled_of_inert hp hcolor hback,
        styled_of_inert (r := { p with store := u }) hp hcolor hback, hd.symm.styled_left hp]
  · obtain ⟨hcolor, hback⟩ := hleft hp
    by_cases hq : q.affected? c.classTemplate = none
    · rw [styled_of_inert hq hcolor hback,
        styled_of_inert (r := { q with store := u }) hq hcolor hback, hd.styled_left hq]
    · obtain ⟨hcolor', hback'⟩ := hright hq
      have hsingle : c.outer.isSome = false := by
        by_contra hsome
        exact houter (Bool.not_eq_false _ ▸ hsome) hp hq
      rw [styled_of_uncolored hsingle hcolor' hback', styled_of_uncolored hsingle hcolor hback,
        styled_of_uncolored (r := { p with store := u }) hsingle hcolor' hback',
        styled_of_uncolored (r := { q with store := u }) hsingle hcolor hback, hd.based_comm]

end Refresh

namespace Session

variable {s : Session} {a b name value : String} {c : Control} {k : Handle}

/-- What a write makes of a widget; one that changes nothing leaves it. -/
def assigned (s : Session) (name value : String) (c : Control) (k : Handle) (w : Widget) : Widget :=
  if (s.store.setText name value true).1 = true then
    (s.refreshAfter name value ((s.store.record name value).text name)).redraw c k w
  else w

theorem assigned_redraws (hs : s.WellFormed) (name value : String) :
    Screen.Redraws (Controls.each (s.assigned name value) s.controls) s.screen
      (s.assign name value).screen := by
  by_cases hc : (s.store.setText name value true).1 = true
  · refine (assign_redraws hs hc).congr fun k w _ => ?_
    simp [Controls.each, assigned, hc]
  · rw [Bool.not_eq_true] at hc
    rw [assign_unchanged hc]
    refine (Screen.Redraws.refl s.screen).congr fun k w _ => ?_
    unfold Controls.each
    split <;> simp [assigned, hc]

theorem assign_eq (s : Session) (name value : String) :
    ∃ screen signals, s.assign name value =
      { s with screen := screen, store := s.store.record name value, signals := signals } := by
  by_cases hc : (s.store.setText name value true).1 = true
  · exact ⟨_, _, if_pos hc⟩
  · exact ⟨_, _, if_neg hc⟩

theorem refreshAfter_assign (s : Session) (a b x y text : String) :
    (s.assign a x).refreshAfter b y text =
      { s.refreshAfter b y text with store := (s.store.record a x).record b y } := by
  obtain ⟨screen, signals, he⟩ := s.assign_eq a x
  rw [he]
  rfl

/-- What a write of one variable makes of a widget after a write of another one. -/
theorem assigned_assign {v w : Variable} (hv : s.store.get? a = some v)
    (hw : s.store.get? b = some w) (hab : a ≠ b) (x y : String) :
    (s.assign a x).assigned b y c k = fun w =>
      if (s.store.setText b y true).1 = true then
        Refresh.redraw { s.refreshAfter b y ((s.store.record b y).text b) with
          store := (s.store.record a x).record b y } c k w
      else w := by
  have hw' : (s.store.record a x).get? b = some w := (Store.get?_record hv hab.symm x).trans hw
  have hv' : (s.store.record b y).get? a = some v := (Store.get?_record hw hab y).trans hv
  have hflag : ((s.assign a x).store.setText b y true).1 = (s.store.setText b y true).1 := by
    rw [assign_store, Store.setText_changed hw', Store.setText_changed hw]
  have htext : ((s.assign a x).store.record b y).text b = (s.store.record b y).text b := by
    rw [assign_store, Store.record_comm hv hw hab.symm, Store.text_record hv' hab.symm]
  funext w
  rw [assigned, hflag, htext, refreshAfter_assign]

/-- What two writes make of a widget of a control is the same in both orders, but for its colors
when the control mixes the variables. -/
theorem assigned_comm (hf : c.Fits s.screen) {v w : Variable} (hv : s.store.get? a = some v)
    (hw : s.store.get? b = some w) (ha : a ≠ "") (hb : b ≠ "") (hab : a ≠ b) (x y : String)
    (d : Widget) :
    ((s.assign a x).assigned b y c k (s.assigned a x c k d)).uncolored =
        ((s.assign b y).assigned a x c k (s.assigned b y c k d)).uncolored ∧
      (¬ c.Mixes a b →
        (s.assign a x).assigned b y c k (s.assigned a x c k d) =
          (s.assign b y).assigned a x c k (s.assigned b y c k d)) := by
  have hu := s.store.record_comm hv hw hab.symm x y
  rw [assigned_assign hv hw hab, assigned_assign hw hv hab.symm, ← hu]
  unfold assigned
  by_cases hca : (s.store.setText a x true).1 = true
  · by_cases hcb : (s.store.setText b y true).1 = true
    · simp only [hca, hcb, if_true]
      have hd : Refresh.Diamond (s.refreshAfter a x ((s.store.record a x).text a))
          (s.refreshAfter b y ((s.store.record b y).text b))
          ((s.store.record a x).record b y) :=
        { ne := hab
          named := ⟨ha, hb⟩
          left := fun n hn =>
            (Store.text_record ((Store.get?_record hv hab.symm x).trans hw) hn y).symm
          right := fun n hn => by
            rw [hu]
            exact (Store.text_record ((Store.get?_record hw hab y).trans hv) hn x).symm
          sheet := rfl
          size := rfl }
      have hun := hd.uncolored_redraw (k := k) hf.bound d
      exact ⟨hun, fun hm => Widget.eq_of_uncolored hun (hd.styled_comm hm)⟩
    · rw [Bool.not_eq_true] at hcb
      simp only [hca, hcb, Store.record_record_of_unchanged hv hw hab.symm hcb x, if_true,
        Bool.false_eq_true, if_false]
      exact ⟨rfl, fun _ => rfl⟩
  · rw [Bool.not_eq_true] at hca
    simp only [hca, hu, Store.record_record_of_unchanged hw hv hab hca y, Bool.false_eq_true,
      if_false]
    exact ⟨rfl, fun _ => rfl⟩

theorem assign_assign_redraws (hs : s.WellFormed) (a b x y : String) :
    Screen.Redraws (Controls.each
      (fun c k w => (s.assign a x).assigned b y c k (s.assigned a x c k w)) s.controls)
      s.screen ((s.assign a x).assign b y).screen := by
  have hsecond := assigned_redraws (assign_keeps hs a x).wellFormed b y
  have hcontrols : (s.assign a x).controls = s.controls := by
    obtain ⟨screen, signals, he⟩ := s.assign_eq a x
    rw [he]
  rw [hcontrols] at hsecond
  exact ((assigned_redraws hs a x).trans hsecond).congr fun k w _ => Controls.each_each _ w

/-- After any document, writes of two declared variables leave the same store in both orders, the
same tree, and the same widgets but for their colors. The screens are the same exactly when the
colors are on the controls that mix the two variables; so when no control does. -/
theorem assign_order_iff (config : Config) (history : List Operation) (markup : String)
    {a b : String} (ha : a ≠ "") (hb : b ≠ "") (hab : a ≠ b)
    (hda : (((Session.new config).after history).render markup).store.contains a = true)
    (hdb : (((Session.new config).after history).render markup).store.contains b = true)
    (x y : String) :
    let s := ((Session.new config).after history).render markup
    let t := (s.assign a x).assign b y
    let u := (s.assign b y).assign a x
    t.store = u.store ∧ u.screen.shape = t.screen.shape ∧
    (∀ h, (u.screen.widget? h).map Widget.uncolored = (t.screen.widget? h).map Widget.uncolored) ∧
    (t.screen.SameTree u.screen ↔ ∀ c ∈ s.controls, c.Mixes a b → ∀ h, c.Owns h →
      (u.screen.style h).colors = (t.screen.style h).colors) := by
  intro s t u
  obtain ⟨v, hv⟩ := Option.isSome_iff_exists.mp hda
  obtain ⟨w, hw⟩ := Option.isSome_iff_exists.mp hdb
  have hs : s.WellFormed := ((wellFormed_new config).after history).render markup
  have ht := assign_assign_redraws hs a b x y
  have hu := assign_assign_redraws hs b a y x
  have hcomm {c : Control} (hc : c ∈ s.controls) {k : Handle} (d : Widget) :=
    assigned_comm (k := k) (hs.fits c hc) hv hw ha hb hab x y d
  refine ⟨?_, by rw [hu.shape, ht.shape], fun h => ?_, ?_⟩
  · rw [show t.store = (s.store.record a x).record b y by
        rw [← assign_store, ← assign_store],
      show u.store = (s.store.record b y).record a x by rw [← assign_store, ← assign_store],
      Store.record_comm hv hw hab.symm]
  · rw [hu.widget, ht.widget, Option.map_map, Option.map_map]
    refine Option.map_congr fun d _ => ?_
    exact Controls.each_rel (P := fun d e => d.uncolored = e.uncolored) (fun _ => rfl)
      fun c hc _ => (hcomm hc d).1.symm
  · rw [ht.sameTree_iff hu,
      Controls.each_eq_iff hs.apart (P := fun k d => s.screen.widget? k = some d)]
    refine forall₂_congr fun c hc => ?_
    have hwidget {t : Screen} {G : Control → Handle → Widget → Widget}
        (hr : Screen.Redraws (Controls.each G s.controls) s.screen t) {k : Handle} (ho : c.Owns k)
        {d : Widget} (hd : s.screen.widget? k = some d) : t.style k = (G c k d).style := by
      rw [Screen.style, hr.widget, hd, Option.map_some, Controls.each_of_owns hs.apart hc ho]
      rfl
    constructor
    · intro hall hm k ho
      obtain ⟨d, hd⟩ := Screen.isLive_iff.mp ((hs.fits c hc).live ho)
      rw [hwidget hu ho hd, hwidget ht ho hd, hall k ho d hd]
    · intro hall k ho d hd
      obtain ⟨huncolored, hplain⟩ := hcomm hc (k := k) d
      by_cases hm : c.Mixes a b
      · have hcolors := hall hm k ho
        rw [hwidget hu ho hd, hwidget ht ho hd] at hcolors
        exact Widget.eq_of_uncolored huncolored.symm
          (Style.eq_of_colors (congrArg Widget.style huncolored.symm) hcolors)
      · exact (hplain hm).symm

/-- A label with a text of both variables, and no classes. -/
theorem assign_order_of_text :
    let s := ((Session.new {}).after []).render
      "<state><int name='a'/><int name='b'/></state><label>\x7ba\x7d:\x7bb\x7d</label>"
    (s.store.contains "a" = true ∧ s.store.contains "b" = true) ∧
      ((s.assign "a" "1").assign "b" "2").screen.SameTree
        ((s.assign "b" "2").assign "a" "1").screen := by
  intro s
  have hda : s.store.contains "a" = true := by decide +kernel
  have hdb : s.store.contains "b" = true := by decide +kernel
  have hplain : s.controls.all (fun c => c.classTemplate.isNone) = true := by decide +kernel
  obtain ⟨-, -, -, hiff⟩ := assign_order_iff {} []
    "<state><int name='a'/><int name='b'/></state><label>\x7ba\x7d:\x7bb\x7d</label>"
    (a := "a") (b := "b") (by decide) (by decide) (by decide) hda hdb "1" "2"
  refine ⟨⟨hda, hdb⟩, hiff.mpr fun c hc hm => ?_⟩
  have hnone : c.classTemplate = none :=
    Option.isNone_iff_eq_none.mp (List.all_eq_true.mp hplain c hc)
  rcases hm with ⟨⟨t, ht, -⟩, -⟩ | ⟨⟨t, ht, -⟩, -⟩ | ⟨-, ⟨t, ht, -⟩, -⟩
  all_goals rw [hnone] at ht; cases ht

/-- The new class takes away the color that the other variable gave. -/
theorem not_assign_order :
    ¬ ∀ (config : Config) (history : List Operation) (markup a b x y : String),
      a ≠ "" → b ≠ "" → a ≠ b →
      let s := ((Session.new config).after history).render markup
      s.store.contains a = true → s.store.contains b = true →
      ((s.assign a x).assign b y).store = ((s.assign b y).assign a x).store ∧
        ((s.assign a x).assign b y).screen.SameTree ((s.assign b y).assign a x).screen := by
  intro hall
  have htree := (hall {} []
    ("<state><string name='a'/><string name='b'/></state>" ++
      "<label class='\x7ba\x7d' color='\x7bb\x7d'>x</label>")
    "a" "b" "hot" "#ff0000" (by decide) (by decide) (by decide) (by decide +kernel)
    (by decide +kernel)).2.widget ⟨1, 1⟩
  revert htree
  decide +kernel

end Session
end ScreenMarkup
