import ScreenMarkup.Proofs.Screen.Looks
import ScreenMarkup.Proofs.Sorting
import ScreenMarkup.Proofs.Text.Words

/-!
# The cascade

Ranking the selecting rules level by level sorts them by level and keeps the
written order within a level. The last rule of that order which sets a
property decides it, both when the property is asked for and when the rules
change a widget one after the other.
-/

set_option autoImplicit false

namespace ScreenMarkup

theorem getLast?_filterMap_cons {α β : Type} (f : α → Option β) (a : α) (l : List α) :
    ((a :: l).filterMap f).getLast? = ((l.filterMap f).getLast?).or (f a) := by
  rw [List.filterMap_cons]
  cases f a with
  | none => rw [Option.or_none]
  | some b =>
    dsimp only
    rw [List.getLast?_cons]
    cases (l.filterMap f).getLast? <;> rfl

/-- The last result over a list, and the member that gives it. -/
theorem getLast?_filterMap_eq_some {α β : Type} {f : α → Option β} {l : List α} {b : β} :
    (l.filterMap f).getLast? = some b ↔
      ∃ before a after, l = before ++ a :: after ∧ f a = some b ∧ ∀ c ∈ after, f c = none := by
  constructor
  · intro h
    obtain ⟨bs, hbs⟩ := List.getLast?_eq_some_iff.1 h
    obtain ⟨before, tail, rfl, -, htail⟩ := List.filterMap_eq_append_iff.1 hbs
    obtain ⟨skipped, a, after, rfl, -, ha, hafter⟩ := List.filterMap_eq_cons_iff.1 htail
    exact ⟨before ++ skipped, a, after, (List.append_assoc _ _ _).symm, ha,
      List.filterMap_eq_nil_iff.1 hafter⟩
  · rintro ⟨before, a, after, rfl, ha, hafter⟩
    rw [List.filterMap_append, List.filterMap_cons_some ha, List.filterMap_eq_nil_iff.2 hafter]
    exact List.getLast?_concat

/-! ## Classes -/

theorem hasClass_congr {classes classes' : String}
    (hm : ∀ w, w ∈ Text.words classes.toList ↔ w ∈ Text.words classes'.toList) (name : String) :
    hasClass classes name = hasClass classes' name := by
  have hcontains : (Text.words classes.toList).contains name.toList =
      (Text.words classes'.toList).contains name.toList := by
    rw [Bool.eq_iff_iff, List.contains_iff_mem, List.contains_iff_mem, hm]
  rw [hasClass, hasClass, hcontains]

theorem Selector.selects_congr {classes classes' : String}
    (hm : ∀ w, w ∈ Text.words classes.toList ↔ w ∈ Text.words classes'.toList) (s : Selector)
    (tag id : String) : s.selects tag id classes = s.selects tag id classes' := by
  cases s with
  | tag t => rfl
  | ofClass c => exact hasClass_congr hm c
  | tagClass t c => rw [selects, selects, hasClass_congr hm c]
  | id i => rfl

namespace Stylesheet

variable (sheet : Stylesheet) (tag id : String)

theorem matching_congr {classes classes' : String}
    (hm : ∀ w, w ∈ Text.words classes.toList ↔ w ∈ Text.words classes'.toList) :
    sheet.matching tag id classes = sheet.matching tag id classes' := by
  simp only [matching, Selector.selects_congr hm]

theorem resolve?_congr {classes classes' : String}
    (hm : ∀ w, w ∈ Text.words classes.toList ↔ w ∈ Text.words classes'.toList)
    (property : String) :
    sheet.resolve? tag id classes property = sheet.resolve? tag id classes' property := by
  rw [resolve?, resolve?, matching_congr sheet tag id hm]

variable (classes : String)

theorem level_mem_levels (s : Selector) : s.level ∈ levels := by
  cases s <;> simp [Selector.level, levels]

/-- Ranking the rules is a stable sort of those that select. -/
theorem matching_eq_mergeSort :
    sheet.matching tag id classes =
      (sheet.rules.filter fun r => r.selector.selects tag id classes).mergeSort
        fun a b => a.selector.level ≤ b.selector.level := by
  let key : Rule → Nat := fun r => r.selector.level
  let selected := sheet.rules.filter fun r => r.selector.selects tag id classes
  let sorted := selected.mergeSort fun a b => key a ≤ key b
  calc sheet.matching tag id classes
      = levels.flatMap (fun k => selected.filter fun r => key r = k) := by
        simp only [matching, selected, key, List.filter_filter]
    _ = levels.flatMap (fun k => sorted.filter fun r => key r = k) := by
        simp only [sorted, filter_mergeSort]
    _ = sorted := flatMap_filter_eq (by decide) (pairwise_mergeSort_key _) fun r _ =>
        level_mem_levels r.selector

end Stylesheet

/-! ## Applying rules -/

/-- In a table the property of one name stands in one entry. -/
theorem NameTable.filterMap_eq {α : Type} (t : NameTable) (name : String)
    (f : String → Option α) :
    t.entries.filterMap (fun e => if e.1 = name then f e.2 else none) =
      ((t.get? name).bind f).toList := by
  obtain ⟨entries, ordered⟩ := t
  rw [get?]
  induction entries with
  | nil => rfl
  | cons e es ih =>
    obtain ⟨hlt, hes⟩ := List.pairwise_cons.1 ordered
    rw [List.filterMap_cons, NameTable.lookup_cons_eq]
    by_cases he : e.1 = name
    · have hrest : es.filterMap (fun d => if d.1 = name then f d.2 else none) = [] := by
        rw [List.filterMap_eq_nil_iff]
        intro d hd
        refine if_neg fun hname => ?_
        have habove := hlt d hd
        rw [he, hname] at habove
        exact String.lt_irrefl _ habove
      rw [if_pos he, if_pos he.symm, hrest, Option.bind_some]
      cases f e.2 <;> rfl
    · rw [if_neg he, if_neg (Ne.symm he)]
      exact ih hes

namespace Declaration

def textColor? : Declaration → Option Nat
  | textColor c => some c
  | _ => none

theorem textAlignOf_eq (value : String) : ∃ a v, textAlignOf value = textAlign a v := by
  unfold textAlignOf
  split
  · exact ⟨_, _, rfl⟩
  · exact ⟨_, _, rfl⟩

theorem parse?_textColor? (name value : String) (size : Size) :
    (parse? name value size).bind textColor? =
      if name = "color" then some (Color.ofStylesheet value) else none := by
  obtain ⟨a, v, halign⟩ := textAlignOf_eq value
  by_cases hname : name = "color"
  · rw [if_pos hname, hname]
    rfl
  · rw [if_neg hname]
    unfold parse?
    rw [halign]
    split <;> first | contradiction | rfl

theorem parse?_zIndex? (name value : String) (size : Size) :
    (parse? name value size).bind zIndex? =
      if name = "z-index" then some (Numeric.leadingInt value.toList) else none := by
  obtain ⟨a, v, halign⟩ := textAlignOf_eq value
  by_cases hname : name = "z-index"
  · rw [if_pos hname, hname]
    rfl
  · rw [if_neg hname]
    unfold parse?
    rw [halign]
    split <;> first | contradiction | rfl

end Declaration

namespace Screen

variable {s : Screen} {h : Handle}

/-- The text color of a widget, if there is such a widget and it has one. -/
def textColor? (s : Screen) (h : Handle) : Option (Option Nat) :=
  (s.looks? h).map (·.style.textColor)

theorem textColor?_setPos (x y : Int) : (s.setPos h x y).textColor? h = s.textColor? h := by
  rw [textColor?, looks?_setPos, textColor?]

theorem textColor?_setSize (width height : Int) :
    (s.setSize h width height).textColor? h = s.textColor? h := by
  rw [textColor?, looks?_setSize, Option.map_map, textColor?]
  rfl

theorem textColor?_applyStyle_textColor (c : Nat) :
    (s.applyStyle h (.textColor c)).textColor? h = (s.textColor? h).map fun _ => some c := by
  rw [textColor?, looks?_applyStyle, Option.map_map, textColor?, Option.map_map]
  rfl

theorem textColor?_applyStyle {p : StyleChange} (hp : ∀ c, p ≠ .textColor c) :
    (s.applyStyle h p).textColor? h = s.textColor? h := by
  have hstyle (style : Style) : (style.apply p).textColor = style.textColor := by
    cases p with
    | textColor c => exact absurd rfl (hp c)
    | padding side v => cases side <;> rfl
    | _ => rfl
  rw [textColor?, looks?_applyStyle, Option.map_map, textColor?]
  congr 1
  funext l
  exact hstyle l.style

theorem textColor?_applyStyles {ps : List StyleChange} (hps : ∀ p ∈ ps, ∀ c, p ≠ .textColor c) :
    (s.applyStyles h ps).textColor? h = s.textColor? h := by
  induction ps generalizing s with
  | nil => rfl
  | cons p ps ih =>
    rw [applyStyles, List.foldl_cons]
    exact (ih fun q hq => hps q (List.mem_cons_of_mem p hq)).trans
      (textColor?_applyStyle (hps p List.mem_cons_self))

theorem textColor?_ite {t : Screen} {c : Prop} [Decidable c]
    (ht : t.textColor? h = s.textColor? h) :
    (if c then t else s).textColor? h = s.textColor? h := by
  split
  · exact ht
  · rfl

theorem textColor?_alignText (valign : String) (height : Int) :
    (s.alignText h valign height).textColor? h = s.textColor? h := by
  unfold alignText
  split
  · rfl
  · exact textColor?_ite (textColor?_applyStyle (by simp))

theorem textColor?_declare (d : Declaration) :
    (s.declare h d).textColor? h = (s.textColor? h).map (d.textColor?.or ·) := by
  have hkeep {t : Screen} (ht : t.textColor? h = s.textColor? h) :
      t.textColor? h = (s.textColor? h).map (Option.or none ·) := by
    simpa using ht
  cases d with
  | textColor c => exact textColor?_applyStyle_textColor c
  | background c => exact hkeep (textColor?_applyStyles (by simp))
  | font f => exact hkeep (textColor?_applyStyle (by simp))
  | radius r => exact hkeep (textColor?_applyStyle (by simp))
  | zIndex z => exact hkeep rfl
  | width w => exact hkeep (textColor?_ite (textColor?_setSize _ _))
  | height n => exact hkeep (textColor?_ite (textColor?_setSize _ _))
  | left x => exact hkeep (textColor?_ite (textColor?_setPos _ _))
  | top y => exact hkeep (textColor?_ite (textColor?_setPos _ _))
  | padding side p =>
    cases side with
    | none => exact hkeep (textColor?_ite (textColor?_applyStyles (by simp)))
    | some side => exact hkeep (textColor?_ite (textColor?_applyStyle (by simp)))
  | opacity o => exact hkeep (textColor?_applyStyle (by simp))
  | textAlign a v => exact hkeep (textColor?_applyStyle (by simp))
  | textValign v => exact hkeep rfl

theorem textColor?_declareAll (ds : List Declaration) :
    (ds.foldl (·.declare h ·) s).textColor? h =
      (s.textColor? h).map ((ds.filterMap Declaration.textColor?).getLast?.or ·) := by
  induction ds generalizing s with
  | nil => simp
  | cons d ds ih =>
    rw [List.foldl_cons, ih, textColor?_declare, Option.map_map, getLast?_filterMap_cons]
    congr 1
    funext c
    exact (Option.or_assoc ..).symm

/-- The declarations of one kind that a table makes, where one name alone makes them. -/
theorem filterMap_parse? {α : Type} {pick : Declaration → Option α} {name : String}
    {f : String → Option α} {size : Size} (t : NameTable)
    (hpick : ∀ n v, (Declaration.parse? n v size).bind pick = if n = name then f v else none) :
    ((t.entries.filterMap fun e => Declaration.parse? e.1 e.2 size).filterMap pick).getLast? =
      (t.get? name).bind f := by
  have hentries : (t.entries.filterMap fun e => Declaration.parse? e.1 e.2 size).filterMap pick =
      ((t.get? name).bind f).toList := by
    rw [List.filterMap_filterMap, ← t.filterMap_eq name f]
    congr 1
    funext e
    exact hpick e.1 e.2
  rw [hentries]
  cases (t.get? name).bind f <;> rfl

theorem applyProperties_zIndex (s : Screen) (h : Handle) (t : NameTable) (size : Size) :
    (s.applyProperties h t size).1 =
      (t.get? "z-index").map fun v => Numeric.leadingInt v.toList :=
  (filterMap_parse? t fun n v => Declaration.parse?_zIndex? n v size).trans
    Option.map_eq_bind.symm

theorem textColor?_applyProperties (s : Screen) (h : Handle) (t : NameTable) (size : Size) :
    (s.applyProperties h t size).2.textColor? h =
      (s.textColor? h).map (((t.get? "color").map Color.ofStylesheet).or ·) := by
  unfold applyProperties
  extract_lets ds declared aligned
  have hdeclared : declared.textColor? h =
      (s.textColor? h).map (((t.get? "color").map Color.ofStylesheet).or ·) := by
    rw [textColor?_declareAll, filterMap_parse? t fun n v => Declaration.parse?_textColor? n v size,
      Option.map_eq_bind (x := t.get? "color")]
    rfl
  rw [← hdeclared]
  show aligned.textColor? h = _
  unfold aligned
  cases wantedValign ds with
  | none => rfl
  | some v => exact textColor?_alignText v _

/-- What a list of rules leaves as the text color and gives as the z-index. -/
theorem foldl_applyProperties (rules : List Rule) (z : Option Int) (s : Screen) (h : Handle)
    (size : Size) :
    let last (p : String) := (rules.filterMap fun r => r.properties.get? p).getLast?
    let styled := rules.foldl (fun acc r =>
      let step := acc.2.applyProperties h r.properties size
      (step.1.or acc.1, step.2)) (z, s)
    styled.1 = ((last "z-index").map fun v => Numeric.leadingInt v.toList).or z ∧
      styled.2.textColor? h = (s.textColor? h).map (((last "color").map Color.ofStylesheet).or ·) := by
  induction rules generalizing z s with
  | nil => simp
  | cons r rules ih =>
    intro last styled
    obtain ⟨hz, hcolor⟩ := ih
      ((s.applyProperties h r.properties size).1.or z) (s.applyProperties h r.properties size).2
    have hlast (p : String) : last p =
        ((rules.filterMap fun r => r.properties.get? p).getLast?).or (r.properties.get? p) :=
      getLast?_filterMap_cons _ r rules
    constructor
    · rw [hlast, Option.map_or, Option.or_assoc, ← applyProperties_zIndex s h]
      exact hz
    · refine hcolor.trans ?_
      rw [textColor?_applyProperties, Option.map_map, hlast, Option.map_or]
      congr 1
      funext c
      exact (Option.or_assoc ..).symm

theorem applyRules_zIndex (s : Screen) (h : Handle) (sheet : Stylesheet) (tag id classes : String)
    (size : Size) :
    (s.applyRules h sheet tag id classes size).1 =
      (sheet.resolve? tag id classes "z-index").map fun v => Numeric.leadingInt v.toList := by
  rw [← Option.or_none (o := (sheet.resolve? _ _ _ _).map _)]
  exact (foldl_applyProperties (sheet.matching tag id classes) none s h size).1

theorem textColor?_applyRules (s : Screen) (h : Handle) (sheet : Stylesheet)
    (tag id classes : String) (size : Size) :
    (s.applyRules h sheet tag id classes size).2.textColor? h =
      (s.textColor? h).map
        (((sheet.resolve? tag id classes "color").map Color.ofStylesheet).or ·) :=
  (foldl_applyProperties (sheet.matching tag id classes) none s h size).2

theorem style_textColor (s : Screen) (h : Handle) :
    (s.style h).textColor = (s.textColor? h).getD none := by
  rw [style_looks, textColor?]
  cases s.looks? h <;> rfl

/-- On a widget without a style the rules leave the text color that the sheet resolves. -/
theorem applyRules_textColor {w : Widget} (hw : s.widget? h = some w) (hstyle : w.style = {})
    (sheet : Stylesheet) (tag id classes : String) (size : Size) :
    ((s.applyRules h sheet tag id classes size).2.style h).textColor =
      (sheet.resolve? tag id classes "color").map Color.ofStylesheet := by
  have hbare : s.textColor? h = some none := by
    rw [textColor?, looks?, hw, Option.map_some, Option.map_some, Widget.looks, hstyle]
  rw [style_textColor, textColor?_applyRules, hbare, Option.map_some, Option.getD_some,
    Option.or_none]

end Screen

namespace Stylesheet

/-- The cascade: the rules that select an element, stably sorted by level, the last of which that
sets a property decides it. It reads the classes as a set, however they are spaced, and applying
it to a live widget without a style gives what it resolves. -/
theorem cascade (sheet : Stylesheet) (tag id classes : String) :
    let selected := sheet.rules.filter fun r => r.selector.selects tag id classes
    let ranked := sheet.matching tag id classes
    ranked = selected.mergeSort (fun a b => a.selector.level ≤ b.selector.level) ∧
    ranked.Perm selected ∧
    ranked.Pairwise (fun a b => a.selector.level ≤ b.selector.level) ∧
    (∀ level, ranked.filter (·.selector.level = level) =
      selected.filter (·.selector.level = level)) ∧
    (∀ p v, sheet.resolve? tag id classes p = some v ↔
      ∃ before r after, ranked = before ++ r :: after ∧ r.properties.get? p = some v ∧
        ∀ q ∈ after, q.properties.get? p = none) ∧
    (∀ p, sheet.resolve? tag id classes p = none ↔
      ∀ r ∈ ranked, r.properties.get? p = none) ∧
    (∃ names, Text.Spaced names classes.toList) ∧
    (∀ (names names' : List (List Char)) (classes' : String),
      Text.Spaced names classes.toList → Text.Spaced names' classes'.toList →
      (∀ name, name ∈ names ↔ name ∈ names') →
      sheet.matching tag id classes' = ranked ∧
      ∀ p, sheet.resolve? tag id classes' p = sheet.resolve? tag id classes p) ∧
    (∀ (s : Screen) (h : Handle) (w : Widget) (size : Size),
      s.widget? h = some w → w.style = {} →
      let styled := s.applyRules h sheet tag id classes size
      (styled.2.style h).textColor =
        (sheet.resolve? tag id classes "color").map Color.ofStylesheet ∧
      styled.1 = (sheet.resolve? tag id classes "z-index").map
        fun v => Numeric.leadingInt v.toList) := by
  intro selected ranked
  have hsort : ranked = selected.mergeSort fun a b => a.selector.level ≤ b.selector.level :=
    sheet.matching_eq_mergeSort tag id classes
  refine ⟨hsort, ?_, ?_, fun level => ?_, fun p v => getLast?_filterMap_eq_some, fun p => ?_,
    ⟨_, Text.spaced_words _⟩, ?_, ?_⟩
  · rw [hsort]
    exact List.mergeSort_perm _ _
  · rw [hsort]
    exact pairwise_mergeSort_key _
  · rw [hsort]
    exact filter_mergeSort selected level
  · rw [resolve?, List.getLast?_eq_none_iff, List.filterMap_eq_nil_iff]
  · intro names names' classes' hs hs' hm
    have hwords (w : List Char) :
        w ∈ Text.words classes'.toList ↔ w ∈ Text.words classes.toList := by
      rw [hs.words_eq, hs'.words_eq, hm]
    exact ⟨sheet.matching_congr tag id hwords, sheet.resolve?_congr tag id hwords⟩
  · intro s h w size hw hstyle
    exact ⟨s.applyRules_textColor hw hstyle sheet tag id classes size,
      s.applyRules_zIndex h sheet tag id classes size⟩

theorem cascade_spaced_classes :
    let sheet : Stylesheet :=
      ⟨[⟨.ofClass "b", .ofList [("color", "#010203"), ("z-index", "7")]⟩,
        ⟨.tag "p", .ofList [("color", "#040506")]⟩]⟩
    let screen := Screen.new ⟨40, 20⟩
    let styled := screen.applyRules Handle.screen sheet "p" "" "a b" ⟨40, 20⟩
    Text.Spaced [['a'], ['b']] "a b".toList ∧
    Text.Spaced [['b'], ['a'], ['b']] "\tb a\n b".toList ∧
    sheet.matching "p" "" "\tb a\n b" = sheet.matching "p" "" "a b" ∧
    screen.widget? Handle.screen = some (Widget.new .screen |>.setSize none 40 20) ∧
    (styled.2.style Handle.screen).textColor =
      (sheet.resolve? "p" "" "a b" "color").map Color.ofStylesheet ∧
    styled.1 = (sheet.resolve? "p" "" "a b" "z-index").map
      fun v => Numeric.leadingInt v.toList := by
  intro sheet screen styled
  have hwords : Text.words "a b".toList = [['a'], ['b']] := by decide
  have hwords' : Text.words "\tb a\n b".toList = [['b'], ['a'], ['b']] := by decide
  have hs : Text.Spaced [['a'], ['b']] "a b".toList := hwords ▸ Text.spaced_words _
  have hs' : Text.Spaced [['b'], ['a'], ['b']] "\tb a\n b".toList := hwords' ▸ Text.spaced_words _
  have hlive : screen.widget? Handle.screen = some (Widget.new .screen |>.setSize none 40 20) := rfl
  obtain ⟨-, -, -, -, -, -, -, hclasses, happly⟩ := cascade sheet "p" "" "a b"
  have hsame := hclasses _ _ _ hs hs' (by simp [or_comm])
  exact ⟨hs, hs', hsame.1, hlive, happly screen Handle.screen _ ⟨40, 20⟩ hlive rfl⟩

end Stylesheet
end ScreenMarkup
