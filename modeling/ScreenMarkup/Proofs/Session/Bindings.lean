import ScreenMarkup.Proofs.Session.Operations

/-!
# Bindings hold

After any writes of variables, every text of a document is its template
filled in, and every bound control has the value of its variable. A write
that refreshes with the raw text of a value, not with what the variable made
of it, keeps the texts only.
-/

set_option autoImplicit false

namespace ScreenMarkup

namespace Control

variable {old new : Store} {s : Screen} {c : Control}

/-- What a control shows depends on the texts of the variables only. -/
theorem ShowsText.rewrite (hc : c.ShowsText old s) (ht : ∀ n, new.text n = old.text n) :
    c.ShowsText new s := by
  obtain ⟨w, hw, htext⟩ := hc
  refine ⟨w, hw, fun t h => ?_⟩
  rw [Template.render_congr fun n _ => ht n]
  exact htext t h

theorem Shows.rewrite (hc : c.Shows old s) (ht : ∀ n, new.text n = old.text n) :
    c.Shows new s := by
  refine ⟨hc.text.rewrite ht, ?_, ?_⟩
  · obtain ⟨w, hw, hvalue⟩ := hc.value
    refine ⟨w, hw, fun v h => ?_⟩
    rw [ht]
    exact hvalue v h
  · obtain ⟨w, hw, hvisible⟩ := hc.visibility
    refine ⟨w, hw, fun v h => ?_⟩
    rw [ht]
    exact hvisible v h

end Control

/-- The operation writes a variable that has a name, and refreshes what depends on it. -/
def Operation.Writes (o : Operation) : Prop :=
  ∃ name value, name ≠ "" ∧ (o = .assign name value ∨ o = .accept name value)

namespace Session

variable {s : Session} {name : String}

/-! ## One write -/

theorem accept_texts (hs : s.WellFormed) (hp : s.ShowsTexts) (hn : name ≠ "") (value : String) :
    (s.accept name value).ShowsTexts := by
  have hstore := withStore_keeps hs (s.store.setText name value false).2
  exact refresh_texts hstore.wellFormed hn hp (fun v hv => (s.store.set_spec name _ false).2 v hv)
    value

theorem assign_texts (hs : s.WellFormed) (hp : s.ShowsTexts) (hn : name ≠ "") (value : String) :
    (s.assign name value).ShowsTexts := by
  have hstore := withStore_keeps hs (s.store.setText name value true).2
  obtain ⟨hsame, hothers⟩ := s.store.set_spec name (Value.read (s.store.typeOf name) value) true
  show ShowsTexts (if (s.store.setText name value true).1 = true then _ else _)
  split
  · exact refresh_texts hstore.wellFormed hn hp (fun v hv => hothers v hv) _
  · next hc =>
    intro c hcm
    apply (hp c hcm).rewrite
    intro n
    exact congrArg (·.text n) (hsame (Bool.not_eq_true _ ▸ hc))

theorem assign_consistent (hs : s.WellFormed) (hp : s.Consistent) (hn : name ≠ "")
    (value : String) : (s.assign name value).Consistent := by
  have hstore := withStore_keeps hs (s.store.setText name value true).2
  obtain ⟨hsame, hothers⟩ := s.store.set_spec name (Value.read (s.store.typeOf name) value) true
  show Consistent (if (s.store.setText name value true).1 = true then _ else _)
  split
  · exact refresh_consistent hstore.wellFormed hn hp fun v hv => hothers v hv
  · next hc =>
    intro c hcm
    apply (hp c hcm).rewrite
    intro n
    exact congrArg (·.text n) (hsame (Bool.not_eq_true _ ▸ hc))

/-! ## Many writes -/

theorem writes_texts (hs : s.WellFormed) (hp : s.ShowsTexts) {run : List Operation}
    (hrun : ∀ o ∈ run, o.Writes) : (s.after run).ShowsTexts := by
  induction run generalizing s with
  | nil => exact hp
  | cons o run ih =>
    have hrest : ∀ o ∈ run, o.Writes := fun o ho => hrun o (by simp [ho])
    obtain ⟨name, value, hn, rfl | rfl⟩ := hrun o (by simp)
    · exact ih (assign_keeps hs name value).wellFormed (assign_texts hs hp hn value) hrest
    · exact ih (accept_keeps hs name value).wellFormed (accept_texts hs hp hn value) hrest

theorem assigns_consistent (hs : s.WellFormed) (hp : s.Consistent) {run : List Operation}
    (hrun : ∀ o ∈ run, ∃ name value, name ≠ "" ∧ o = .assign name value) :
    (s.after run).Consistent := by
  induction run generalizing s with
  | nil => exact hp
  | cons o run ih =>
    obtain ⟨name, value, hn, rfl⟩ := hrun o (by simp)
    exact ih (assign_keeps hs name value).wellFormed (assign_consistent hs hp hn value)
      fun o ho => hrun o (by simp [ho])

/-! ## What is seen -/

theorem ShowsTexts.text (hp : s.ShowsTexts) {c : Control} (hc : c ∈ s.controls) {t : String}
    (ht : c.template = some t) : ∃ w, s.screen.widget? c.obj = some w ∧
      (c.theme = none → w.text = Template.render t s.store) ∧
      ∀ theme, c.theme = some theme →
        w.spans = Markdown.render (Template.render t s.store) theme := by
  obtain ⟨w, hw, htext⟩ := hp c hc
  have hshown := htext t ht
  refine ⟨w, hw, fun hn => ?_, fun theme he => ?_⟩
  · rw [hn] at hshown
    exact hshown
  · rw [he] at hshown
    exact hshown

theorem Consistent.visible (hp : s.Consistent) {c : Control} (hc : c ∈ s.controls) {v : String}
    (hv : c.visibleBind = some v) : ∃ w, s.screen.widget? c.target = some w ∧
      (w.hidden = true ↔ readBool (s.store.text v) = false) := by
  obtain ⟨w, hw, hvisible⟩ := (hp c hc).visibility
  have hhidden : w.hidden = !readBool (s.store.text v) := hvisible v hv
  refine ⟨w, hw, ?_⟩
  rw [hhidden, Bool.not_eq_true']

theorem Consistent.value (hp : s.Consistent) {c : Control} (hc : c ∈ s.controls) {v : String}
    (hv : c.bind = some v) : ∃ w, s.screen.widget? c.obj = some w ∧
      (c.kind = .switch → w.checked = readBool (s.store.text v)) ∧
      (c.kind = .slider → w.value =
        Widget.clampValue w.low w.high (Numeric.leadingInt (s.store.text v).toList)) ∧
      (c.kind = .input → w.text = s.store.text v) := by
  obtain ⟨w, hw, hvalue⟩ := (hp c hc).value
  have hshown := hvalue v hv
  refine ⟨w, hw, fun hk => ?_, fun hk => ?_, fun hk => ?_⟩
  · rw [hk] at hshown
    exact hshown
  · rw [hk] at hshown
    exact hshown
  · rw [hk] at hshown
    exact hshown

/-- A document on a cleared screen goes on showing the variables it depends on: its texts after
any writes, its visibility and its values after writes that refresh with the variable's text. -/
theorem rendered_shows_variables (config : Config) (history : List Operation) (markup : String)
    (run : List Operation) (hrun : ∀ o ∈ run, o.Writes) :
    let s := ((((Session.new config).after history).clear).render markup).after run
    (∀ c ∈ s.controls, ∀ t, c.template = some t → ∃ w, s.screen.widget? c.obj = some w ∧
      (c.theme = none → w.text = Template.render t s.store) ∧
      ∀ theme, c.theme = some theme →
        w.spans = Markdown.render (Template.render t s.store) theme) ∧
    ((∀ o ∈ run, ∃ name value, o = .assign name value) →
      (∀ c ∈ s.controls, ∀ v, c.visibleBind = some v →
        ∃ w, s.screen.widget? c.target = some w ∧
          (w.hidden = true ↔ readBool (s.store.text v) = false)) ∧
      ∀ c ∈ s.controls, ∀ v, c.bind = some v → ∃ w, s.screen.widget? c.obj = some w ∧
        (c.kind = .switch → w.checked = readBool (s.store.text v)) ∧
        (c.kind = .slider → w.value =
          Widget.clampValue w.low w.high (Numeric.leadingInt (s.store.text v).toList)) ∧
        (c.kind = .input → w.text = s.store.text v)) := by
  intro s
  have hcleared := ((wellFormed_new config).after history).clear
  have hrendered := hcleared.render markup
  have hfirst := render_consistent hcleared rfl markup
  constructor
  · intro c hc t ht
    exact (writes_texts hrendered (fun c hc => (hfirst c hc).text) hrun).text hc ht
  · intro hassign
    have hall : s.Consistent := assigns_consistent hrendered hfirst fun o ho => by
      obtain ⟨name, value, rfl⟩ := hassign o ho
      obtain ⟨name', value', hn, he | he⟩ := hrun _ ho
      · cases he
        exact ⟨name, value, hn, rfl⟩
      · cases he
    exact ⟨fun c hc v hv => hall.visible hc hv, fun c hc v hv => hall.value hc hv⟩

/-- Its label shows the variable after both kinds of writes. -/
theorem rendered_label_shows_variable :
    let s := (((Session.new {}).after []).clear.render "<label>\x7bx\x7d</label>").after
      [.assign "x" "1", .accept "y" "2"]
    ∃ c ∈ s.controls, ∃ t, c.template = some t ∧
      ∃ w, s.screen.widget? c.obj = some w ∧ w.text = Template.render t s.store := by
  have hlabel : ((((Session.new {}).after []).clear.render "<label>\x7bx\x7d</label>").after
      [.assign "x" "1", .accept "y" "2"]).controls.any
        (fun c => c.template.isSome && c.theme.isNone) = true := by
    decide +kernel
  obtain ⟨c, hc, hboth⟩ := List.any_eq_true.mp hlabel
  obtain ⟨hsome, hnone⟩ := Bool.and_eq_true_iff.mp hboth
  obtain ⟨t, ht⟩ := Option.isSome_iff_exists.mp hsome
  obtain ⟨htexts, -⟩ := rendered_shows_variables {} [] "<label>\x7bx\x7d</label>"
    [.assign "x" "1", .accept "y" "2"] (by
      intro o ho
      simp only [List.mem_cons, List.not_mem_nil, or_false] at ho
      rcases ho with rfl | rfl
      · exact ⟨"x", "1", by decide, .inl rfl⟩
      · exact ⟨"y", "2", by decide, .inr rfl⟩)
  obtain ⟨w, hw, htext, -⟩ := htexts c hc t ht
  exact ⟨c, hc, t, ht, w, hw, htext (Option.isNone_iff_eq_none.mp hnone)⟩

end Session
end ScreenMarkup
