import ScreenMarkup.Proofs.Session.WriteOrder

/-!
# What a write leaves alone

A write of a variable reaches the widgets of the controls that depend on the
variable. All other widgets stay as they are, and so do the tree, the other
variables and whatever else a document put behind the screen.
-/

set_option autoImplicit false

namespace ScreenMarkup

namespace Store

variable {s : Store} {name n : String}

/-- All variables but one, in their order. -/
def without (s : Store) (name : String) : List (String × Variable) :=
  s.vars.filter fun e => e.1 ≠ name

theorem lookup_without (hn : n ≠ name) : (s.without name).lookup n = s.get? n := by
  rw [without, lookup_filter_ne, if_neg hn]
  rfl

theorem filter_put (name : String) (v : Variable) (vars : List (String × Variable)) :
    (put name v vars).filter (fun e => e.1 ≠ name) = vars.filter fun e => e.1 ≠ name := by
  induction vars with
  | nil => simp [put]
  | cons e es ih =>
    unfold put
    by_cases he : e.1 = name
    · rw [if_pos he, List.filter_cons_of_neg (by simp), List.filter_cons_of_neg (by simpa using he)]
    · rw [if_neg he, List.filter_cons_of_pos (by simpa using he),
        List.filter_cons_of_pos (by simpa using he), ih]

theorem without_set (s : Store) (name : String) (value : Value) (notify : Bool) :
    (s.set name value notify).2.without name = s.without name := by
  unfold set
  extract_lets written
  have hwritten (v : Variable) : (written v).2.without name = s.without name := by
    have hput := filter_put name v s.vars
    unfold written notice
    dsimp only
    split_ifs <;> exact hput
  split
  · next v _ =>
    split
    · rfl
    · exact hwritten { v with value := value }
  · exact hwritten ⟨.string, value, value⟩

theorem without_record (s : Store) (name text : String) :
    (s.record name text).without name = s.without name :=
  without_set s name _ true

end Store

namespace Control

/-- A template of the control mentions the variable, or a binding names it. -/
def DependsOn (c : Control) (name : String) : Prop :=
  c.template.any (Template.mentions · name) = true ∨
    c.classTemplate.any (Template.mentions · name) = true ∨ c.bind = some name ∨
    c.visibleBind = some name ∨ c.bgcolorBind = some name ∨ c.colorBind = some name

instance (c : Control) (name : String) : Decidable (c.DependsOn name) :=
  inferInstanceAs (Decidable (_ ∨ _))

end Control

namespace Refresh

variable {r : Refresh} {c : Control} {k : Handle} {template : Option String}

theorem affected?_eq_none (ht : ¬ template.any (Template.mentions · r.name) = true) :
    r.affected? template = none := by
  cases template with
  | none => rfl
  | some t => rw [affected?, Option.filter_some, if_neg (by simpa using ht)]

/-- The refresh leaves a control alone that does not depend on the variable. -/
theorem redraw_of_independent (hc : ¬ c.DependsOn r.name) (w : Widget) : r.redraw c k w = w := by
  simp only [Control.DependsOn, not_or] at hc
  obtain ⟨ht, hclasses, hbind, hvisible, hbackground, hcolor⟩ := hc
  have htext := affected?_eq_none ht
  have hnew := affected?_eq_none hclasses
  simp [redraw, styled, textFor, spansFor, checkedFor, valueFor, hiddenFor, classesFor, colorFor,
    backgroundFor, newSpans?, shownText?, ruledColor?, filled?, htext, hnew, hbind, hvisible,
    hbackground, hcolor, Style.recolor]

/-- What a template shows depends on no variable that it does not mention: two stores that differ
only in such a variable render it alike, and so a refresh that skips the template leaves no stale
text behind. The listed variables and the one without a name are all that a template reads. -/
theorem skipped_stays_current (template : String) :
    (∀ (name : String) (store store' : Store),
      name ≠ "" → Template.mentions template name = false →
        (∀ n, n ≠ name → store'.text n = store.text n) →
          Template.render template store' = Template.render template store) ∧
    (∀ (r : Refresh) (before : Store),
      r.name ≠ "" → r.affected? (some template) = none →
        (∀ n, n ≠ r.name → r.store.text n = before.text n) →
          Template.render template r.store = Template.render template before) ∧
    ∀ store store' : Store, store'.text "" = store.text "" →
      (∀ n ∈ Template.dependencies template, store'.text n = store.text n) →
        Template.render template store' = Template.render template store := by
  have hunmentioned (name : String) (store store' : Store) (hname : name ≠ "")
      (hm : Template.mentions template name = false)
      (hs : ∀ n, n ≠ name → store'.text n = store.text n) :
      Template.render template store' = Template.render template store := by
    refine Template.render_congr fun n hn => hs n ?_
    rintro rfl
    rcases hn with he | ht
    · exact hname he
    · exact absurd (hm.symm.trans ht) (by decide)
  refine ⟨hunmentioned, fun r before hname hskip => ?_, fun store store' => ?_⟩
  · refine hunmentioned r.name before r.store hname ?_
    simpa [affected?, Option.filter_eq_none_iff] using hskip
  · exact Template.render_congr_dependencies

/-- Only `b` is written, which the template has in braces that are no placeholder of their own. -/
theorem skipped_stays_current_of_counter :
    let before : Store := { vars := [("a", ⟨.int, .int 1, .int 1⟩), ("b", ⟨.int, .int 1, .int 1⟩)] }
    let after := (before.set "b" (.int 2) true).2
    let r : Refresh := ⟨after, {}, ⟨0, 0⟩, "b", "2"⟩
    let template := "n = {a}, { b}"
    (("b" ≠ "" ∧ Template.mentions template "b" = false) ∧
      (∀ n, n ≠ "b" → after.text n = before.text n) ∧ after.text "b" ≠ before.text "b" ∧
      Template.dependencies template = ["a", " b"]) ∧
    Template.render template after = Template.render template before ∧
    Template.render template r.store = Template.render template before := by
  intro before after r template
  have hm : Template.mentions template "b" = false := by decide +kernel
  have hs : ∀ n, n ≠ "b" → after.text n = before.text n := (Store.set_spec _ _ _ _).2
  have hskip : r.affected? (some template) = none := by decide +kernel
  obtain ⟨-, hrefresh, hlisted⟩ := skipped_stays_current template
  refine ⟨⟨⟨by decide, hm⟩, hs, by decide +kernel, by decide +kernel⟩, ?_, ?_⟩
  · exact hlisted before after (by decide +kernel) (by decide +kernel)
  · exact hrefresh r before (by decide) hskip hs

end Refresh

namespace Session

variable {s : Session} {name value : String} {h : Handle}

/-- A write leaves the widgets that belong to no control that depends on the variable. -/
theorem assign_widget_frame (hs : s.WellFormed)
    (hh : ∀ c ∈ s.controls, c.DependsOn name → ¬ c.Owns h) :
    (s.assign name value).screen.widget? h = s.screen.widget? h := by
  rw [(assigned_redraws hs name value).widget]
  have hsame (w : Widget) : Controls.each (s.assigned name value) s.controls h w = w := by
    unfold Controls.each
    split
    · next c hfind =>
      have howns : c.Owns h := by simpa using List.find?_some hfind
      unfold assigned
      split
      · refine Refresh.redraw_of_independent (fun hd => ?_) w
        exact hh c (List.mem_of_find?_eq_some hfind) hd howns
      · rfl
    · rfl
  cases s.screen.widget? h with
  | none => rfl
  | some w => rw [Option.map_some, hsame]

/-- In any state of a session, a write of a variable changes no widget but those of the controls
that depend on the variable, and no variable but this one. The tree stays, and outside the screen,
the variables and the signals everything stays: the controls with their canvases, the pages, the
listeners, the rules, the head and the focus. -/
theorem assign_frame (config : Config) (history : List Operation) (name value : String) :
    let s := (Session.new config).after history
    let t := s.assign name value
    (∀ h, (∀ c ∈ s.controls, c.DependsOn name → h ≠ c.obj ∧ h ≠ c.target) →
      t.screen.widget? h = s.screen.widget? h) ∧
    t.screen.shape = s.screen.shape ∧
    (∀ h, t.screen.parent? h = s.screen.parent? h ∧ t.screen.children h = s.screen.children h) ∧
    t = { s with screen := t.screen, store := t.store, signals := t.signals } ∧
    t.store.without name = s.store.without name ∧
    ∀ n, n ≠ name → t.store.get? n = s.store.get? n := by
  intro s t
  have hs : s.WellFormed := (wellFormed_new config).after history
  have hshape : t.screen.shape = s.screen.shape := (assigned_redraws hs name value).shape
  obtain ⟨screen, signals, he⟩ := s.assign_eq name value
  have hstore : t.store.without name = s.store.without name := by
    rw [show t.store = s.store.record name value from s.assign_store name value]
    exact s.store.without_record name value
  refine ⟨fun h hh => ?_, hshape, fun h => ?_, ?_, hstore, fun n hn => ?_⟩
  · refine assign_widget_frame hs fun c hc hd ho => ?_
    obtain ⟨hobj, htarget⟩ := hh c hc hd
    rcases ho with ho | ho
    · exact hobj ho.symm
    · exact htarget (by rw [Control.target, ho, Option.getD_some])
  · rw [Screen.parent?, Screen.ancestors, Screen.children, Screen.branch?, hshape]
    exact ⟨rfl, rfl⟩
  · unfold t
    rw [he]
  · rw [← Store.lookup_without hn, hstore, Store.lookup_without hn]

/-- The label and the button both show variables; only the label shows the one that is written. -/
theorem assign_frame_beside :
    let s := (Session.new {}).after [.render
      ("<state><string name='a'/><string name='b'/></state>" ++
        "<label>\x7ba\x7d</label><button class='\x7bb\x7d'>\x7bb\x7d</button>")]
    let t := s.assign "a" "1"
    (s.store.contains "b" = true ∧ s.screen.children Handle.screen = [⟨1, 1⟩, ⟨2, 1⟩] ∧
      (∀ c ∈ s.controls, c.DependsOn "a" → (⟨2, 1⟩ : Handle) ≠ c.obj ∧ ⟨2, 1⟩ ≠ c.target)) ∧
    t.screen.text ⟨1, 1⟩ = "1" ∧ t.screen.widget? ⟨2, 1⟩ = s.screen.widget? ⟨2, 1⟩ ∧
      t.store.get? "b" = s.store.get? "b" := by
  intro s t
  have hapart : ∀ c ∈ s.controls, c.DependsOn "a" →
      (⟨2, 1⟩ : Handle) ≠ c.obj ∧ ⟨2, 1⟩ ≠ c.target := by decide +kernel
  obtain ⟨hframe, -, -, -, -, hothers⟩ := assign_frame {} [.render
    ("<state><string name='a'/><string name='b'/></state>" ++
      "<label>\x7ba\x7d</label><button class='\x7bb\x7d'>\x7bb\x7d</button>")] "a" "1"
  exact ⟨⟨by decide +kernel, by decide +kernel, hapart⟩, by decide +kernel,
    hframe ⟨2, 1⟩ hapart, hothers "b" (by decide)⟩

end Session
end ScreenMarkup
