import ScreenMarkup.Proofs.State.Dependency

/-!
# Writes of variables

A write puts its value in the place of the old one, unless they are the same.
Writes of two declared variables can change places. Who is told of a write
makes no difference for the variables. What a template becomes in a run of
writes is told by those that change a variable it mentions: the last of them
fills it in for good.
-/

set_option autoImplicit false

namespace ScreenMarkup

/-- The variable after a write; a value that is the same is not replaced. -/
def Variable.become (v : Variable) (value : Value) : Variable :=
  if v.value.same value = true then v else { v with value := value }

/-- A text or an integer is the same as itself only. -/
theorem Value.eq_of_same {v w : Value} (hw : w.type = .string ∨ w.type = .int)
    (hs : v.same w = true) : v = w := by
  cases w with
  | string t => cases v <;> simp_all [same]
  | int n => cases v <;> simp_all [same]
  | bool b => simp [type] at hw
  | float x => simp [type] at hw

namespace Store

variable {s : Store} {name n : String} {v w : Variable} {vars : List (String × Variable)}

theorem put_put (name : String) (v w : Variable) (vars : List (String × Variable)) :
    put name w (put name v vars) = put name w vars := by
  induction vars with
  | nil => simp [put]
  | cons e es ih =>
    by_cases hn : e.1 = name
    · simp [put, hn]
    · simp [put, hn, ih]

/-- Two names that are not new at both times stay where they are. -/
theorem put_comm (hn : n ≠ name) (hw : (vars.lookup n).isSome = true) :
    put name v (put n w vars) = put n w (put name v vars) := by
  induction vars with
  | nil => cases hw
  | cons e es ih =>
    rw [lookup_cons_if] at hw
    by_cases he : e.1 = n
    · have hne : e.1 ≠ name := fun h => hn (he.symm.trans h)
      simp [put, he, hn]
    · rw [if_neg (Ne.symm he)] at hw
      by_cases hk : e.1 = name
      · simp [put, hk, Ne.symm hn]
      · simp [put, he, hk, ih hw]

/-- What stands in a variable already is put there without a change. -/
theorem put_of_lookup (hv : vars.lookup name = some v) : put name v vars = vars := by
  induction vars with
  | nil => cases hv
  | cons e es ih =>
    rw [lookup_cons_if] at hv
    by_cases he : e.1 = name
    · rw [if_pos he.symm] at hv
      rw [put, if_pos he, ← he, ← Option.some.inj hv]
    · rw [if_neg (Ne.symm he)] at hv
      rw [put, if_neg he, ih hv]

theorem get?_withVariable (v : Variable) : (s.withVariable name v).get? name = some v := by
  rw [get?, withVariable, lookup_put, if_pos rfl]

/-! ## Any variable -/

/-- Notice makes no difference for the variables. -/
theorem set_notify (s : Store) (name : String) (value : Value) :
    (s.set name value true).1 = (s.set name value false).1 ∧
      (s.set name value true).2.takeNotices.2 = (s.set name value false).2.takeNotices.2 := by
  have hnotice (v : Variable) :
      ((s.withVariable name v).notice name value).takeNotices.2 =
        (s.withVariable name v).takeNotices.2 := by
    unfold notice
    split <;> rfl
  unfold set
  cases s.get? name with
  | none => exact ⟨rfl, hnotice _⟩
  | some v =>
    by_cases hsame : v.value.same value = true
    · simp [hsame]
    · simpa [hsame] using hnotice _

/-- A variable that changed has the value that was written. -/
theorem text_set {value : Value} (hc : (s.set name value false).1 = true) :
    (s.set name value false).2.text name = value.text := by
  unfold set at hc ⊢
  cases hg : s.get? name with
  | none => simp [text, get?_withVariable]
  | some v =>
    by_cases hsame : v.value.same value = true
    · simp [hg, hsame] at hc
    · simp [hsame, text, get?_withVariable]

/-! ## Declared variables -/

/-- The store after a write, its notices taken. -/
def record (s : Store) (name text : String) : Store := (s.setText name text true).2.takeNotices.2

/-- A written text or integer is what the variable reads as afterwards. -/
theorem int_record (ht : s.typeOf name = .string ∨ s.typeOf name = .int) (text : String) :
    (s.record name text).int name = (Value.read (s.typeOf name) text).toInt := by
  have htype : (Value.read (s.typeOf name) text).type = s.typeOf name := by
    cases s.typeOf name <;> rfl
  rw [← htype] at ht
  rw [record, setText, (set_notify s name _).2]
  generalize Value.read (s.typeOf name) text = value at ht
  show (s.set name value false).2.int name = _
  unfold set
  cases hv : s.get? name with
  | none => simp [int, get?_withVariable]
  | some v =>
    by_cases hsame : v.value.same value = true
    · obtain rfl := Value.eq_of_same ht hsame
      simp [hsame, int, hv]
    · simp [hsame, int, get?_withVariable]

theorem record_eq (hv : s.get? name = some v) (text : String) :
    s.record name text =
      { s with vars := put name (v.become (Value.read v.type text)) s.vars, notices := [] } := by
  have htype : s.typeOf name = v.type := by simp [typeOf, hv]
  rw [record, setText, htype, (set_notify s name _).2, Variable.become]
  by_cases hsame : v.value.same (Value.read v.type text) = true
  · rw [if_pos hsame, put_of_lookup hv]
    simp [set, hv, hsame, takeNotices]
  · simp [set, hv, hsame, takeNotices, withVariable]

theorem get?_record (hv : s.get? name = some v) (hn : n ≠ name) (text : String) :
    (s.record name text).get? n = s.get? n := by
  rw [record_eq hv, get?, get?, lookup_put, if_neg hn]

/-- Writes of two declared variables can change places. -/
theorem record_comm (hv : s.get? name = some v) (hw : s.get? n = some w) (hn : n ≠ name)
    (x y : String) :
    (s.record name x).record n y = (s.record n y).record name x := by
  have hw' : (s.record name x).get? n = some w := (get?_record hv hn x).trans hw
  have hv' : (s.record n y).get? name = some v := (get?_record hw (Ne.symm hn) y).trans hv
  have hsome : (s.vars.lookup n).isSome = true := by rw [← get?, hw]; rfl
  rw [record_eq hw', record_eq hv', record_eq hv, record_eq hw]
  simp only [put_comm hn hsome]

/-- Whether a write changes a variable is up to that variable. -/
theorem setText_changed (hw : s.get? n = some w) (text : String) :
    (s.setText n text true).1 = !w.value.same (Value.read w.type text) := by
  have htype : s.typeOf n = w.type := by simp [typeOf, hw]
  rw [setText, htype, set, hw]
  by_cases hsame : w.value.same (Value.read w.type text) = true
  · simp [hsame]
  · simp [hsame]

theorem text_record (hv : s.get? name = some v) (hn : n ≠ name) (text : String) :
    (s.record name text).text n = s.text n := by
  rw [Store.text, Store.text, get?_record hv hn]

/-- A write that changes nothing, after another one, leaves the store of that one. -/
theorem record_record_of_unchanged (hv : s.get? name = some v) (hw : s.get? n = some w)
    (hn : n ≠ name) {y : String} (hc : (s.setText n y true).1 = false) (x : String) :
    (s.record name x).record n y = s.record name x := by
  have hw' : (s.record name x).get? n = some w := (get?_record hv hn x).trans hw
  rw [setText_changed hw, ← setText_changed hw'] at hc
  rw [record, setText, (set_spec _ _ _ _).1 hc]
  rfl

end Store
end ScreenMarkup

namespace ScreenMarkup.Store

variable {s : Store} {name value n template : String} {writes : List (String × String)}

/-- Writes in order, each a variable and its new text. -/
def recordAll (s : Store) (writes : List (String × String)) : Store :=
  writes.foldl (fun s w => s.record w.1 w.2) s

/-- The write changes a variable that the template mentions. -/
def touches (s : Store) (template name value : String) : Bool :=
  (s.setText name value true).1 && Template.mentions template name

/-- What a template is filled in to, by each write that touches it. -/
def fills (s : Store) (template : String) : List (String × String) → List String
  | [] => []
  | (name, value) :: writes =>
    let t := s.record name value
    if s.touches template name value then Template.render template t :: t.fills template writes
    else t.fills template writes

theorem text_record_of_ne (hn : n ≠ name) : (s.record name value).text n = s.text n :=
  (set_spec s name _ true).2 n hn

theorem text_record_of_unchanged (hc : (s.setText name value true).1 = false) :
    (s.record name value).text n = s.text n := by
  rw [record, setText, (set_spec s name _ true).1 hc]
  rfl

/-- A write that does not touch a template leaves it filled in as it is. -/
theorem render_record (hn : name ≠ "") (ht : s.touches template name value = false) :
    Template.render template (s.record name value) = Template.render template s := by
  refine Template.render_congr fun m hm => ?_
  cases hc : (s.setText name value true).1 with
  | false => exact text_record_of_unchanged hc
  | true =>
    refine text_record_of_ne ?_
    rintro rfl
    rcases hm with hm | hm
    · exact hn hm
    · rw [touches, hc, hm] at ht
      cases ht

/-- The last write that touches a template decides what it is filled in to. -/
theorem render_recordAll (hn : ∀ w ∈ writes, w.1 ≠ "") :
    Template.render template (s.recordAll writes) =
      (s.fills template writes).getLast?.getD (Template.render template s) := by
  induction writes generalizing s with
  | nil => rfl
  | cons w writes ih =>
    obtain ⟨name, value⟩ := w
    have hrest := ih (s := s.record name value) fun w hw => hn w (List.mem_cons_of_mem _ hw)
    refine hrest.trans ?_
    rw [fills]
    cases ht : s.touches template name value with
    | true =>
      rw [if_pos rfl, List.getLast?_cons, Option.getD_some]
    | false =>
      have hsame := render_record (hn _ List.mem_cons_self) ht
      rw [if_neg Bool.false_ne_true, hsame]

/-- What a run fills a template in to last is what the template is at its end. -/
theorem fills_getLast?_iff {filled : String} (hn : ∀ w ∈ writes, w.1 ≠ "") :
    (s.fills template writes).getLast? = some filled ↔
      s.fills template writes ≠ [] ∧ Template.render template (s.recordAll writes) = filled := by
  rw [render_recordAll hn]
  cases hlast : (s.fills template writes).getLast? with
  | none => simp [List.getLast?_eq_none_iff.mp hlast]
  | some last =>
    have hne : s.fills template writes ≠ [] := by
      intro hnil
      rw [hnil] at hlast
      cases hlast
    simp [hne]

end ScreenMarkup.Store
