import Mathlib.Data.List.Nodup
import ScreenMarkup.State.Ledger

/-!
# The order of the variables

Operations declare names or none, and clearing forgets all of them. The names
in order and the table are kept up apart from each other, and both follow
this: a name stands in the order once, from its first declaration until the
store is cleared. So an index means one variable, in the memory as in the
store that it represents.
-/

set_option autoImplicit false

namespace ScreenMarkup

namespace StoreOperation

/-- The name that is declared after the operation, whether it was so before or not. -/
def declares? : StoreOperation → Option String
  | define name _ _ => some name
  | defineText name _ _ => some name
  | set name _ _ => some name
  | setText name _ _ => some name
  | _ => none

/-- Values are given as texts, if at all. -/
def isText : StoreOperation → Bool
  | define _ _ _ => false
  | set _ _ _ => false
  | _ => true

/-- Some operation declares the name, and none after it clears the store. -/
def Declares (ops : List StoreOperation) (name : String) : Prop :=
  ∃ before op after, ops = before ++ op :: after ∧ op.declares? = some name ∧ clear ∉ after

theorem declares_cons {op : StoreOperation} {ops : List StoreOperation} {name : String} :
    Declares (op :: ops) name ↔ (op.declares? = some name ∧ clear ∉ ops) ∨ Declares ops name := by
  constructor
  · rintro ⟨before, op', after, he, hname, hclear⟩
    cases before with
    | nil =>
      obtain ⟨rfl, rfl⟩ := List.cons.inj he
      exact .inl ⟨hname, hclear⟩
    | cons d before =>
      obtain ⟨rfl, rfl⟩ := List.cons.inj he
      exact .inr ⟨before, op', after, rfl, hname, hclear⟩
  · rintro (⟨hname, hclear⟩ | ⟨before, op', after, rfl, hname, hclear⟩)
    · exact ⟨[], op, ops, rfl, hname, hclear⟩
    · exact ⟨op :: before, op', after, rfl, hname, hclear⟩

end StoreOperation

/-- Both values of the variable have its type. -/
def Variable.Typed (v : Variable) : Prop := v.value.type = v.type ∧ v.initial.type = v.type

theorem Value.type_read (type : VarType) (text : String) : (Value.read type text).type = type := by
  cases type <;> rfl

namespace Ledger

open StoreOperation

variable {l : Ledger} {name n : String} {v : Variable}

@[simp] theorem table_insert :
    (l.insert name v).table n = if n = name then some v else l.table n := rfl

@[simp] theorem order_insert : (l.insert name v).order = l.order := rfl

@[simp] theorem table_push : (l.push name).table = l.table := rfl

@[simp] theorem order_push : (l.push name).order = l.order ++ [name] := rfl

@[simp] theorem table_notify : (l.notify name).table = l.table := by
  unfold notify
  split
  · split <;> rfl
  · rfl

@[simp] theorem order_notify : (l.notify name).order = l.order := by
  unfold notify
  split
  · split <;> rfl
  · rfl

@[simp] theorem table_notifyIf (wanted : Bool) : (l.notifyIf wanted name).table = l.table := by
  cases wanted <;> simp [notifyIf]

@[simp] theorem order_notifyIf (wanted : Bool) : (l.notifyIf wanted name).order = l.order := by
  cases wanted <;> simp [notifyIf]

theorem contains_iff : l.contains name = true ↔ ∃ v, l.table name = some v :=
  Option.isSome_iff_exists

theorem contains_congr {t : Ledger} (ht : t.table = l.table) : t.contains n = l.contains n := by
  rw [contains, contains, ht]

theorem contains_insert :
    (l.insert name v).contains n = true ↔ l.contains n = true ∨ n = name := by
  by_cases hn : n = name <;> simp [contains, hn]

/-! ## Single operations -/

/-- What a write does: nothing, or it puts the value into a declared variable or into a new text
variable, and then gives notice of it where this is wanted. -/
theorem set_cases (l : Ledger) (name : String) (value : Value) (notify : Bool) :
    (∃ v, l.table name = some v ∧ v.value.same value = true ∧
      l.set name value notify = (false, l)) ∨
    (∃ v, l.table name = some v ∧ v.value.same value = false ∧
      l.set name value notify =
        (true, (l.insert name { v with value := value }).notifyIf notify name)) ∨
    (l.table name = none ∧
      l.set name value notify =
        (true, ((l.push name).insert name ⟨.string, value, value⟩).notifyIf notify name)) := by
  unfold set
  cases hv : l.table name with
  | none => exact .inr (.inr ⟨rfl, rfl⟩)
  | some v =>
    cases hsame : v.value.same value with
    | true => exact .inl ⟨v, rfl, hsame, by simp [hsame]⟩
    | false => exact .inr (.inl ⟨v, rfl, hsame, by simp [hsame]⟩)

theorem contains_set (value : Value) (notify : Bool) :
    (l.set name value notify).2.contains n = true ↔ l.contains n = true ∨ n = name := by
  obtain ⟨v, hv, -, hset⟩ | ⟨v, -, -, hset⟩ | ⟨-, hset⟩ := l.set_cases name value notify
  · rw [hset]
    refine ⟨.inl, fun h => h.elim id ?_⟩
    rintro rfl
    exact contains_iff.2 ⟨v, hv⟩
  · rw [hset, contains_congr (table_notifyIf notify), contains_insert]
  · rw [hset, contains_congr (table_notifyIf notify), contains_insert, contains_congr table_push]

theorem order_set (value : Value) (notify : Bool) :
    (l.set name value notify).2.order =
      if l.contains name = true then l.order else l.order ++ [name] := by
  obtain ⟨v, hv, -, hset⟩ | ⟨v, hv, -, hset⟩ | ⟨hv, hset⟩ := l.set_cases name value notify
  · rw [hset, if_pos (contains_iff.2 ⟨v, hv⟩)]
  · rw [hset, if_pos (contains_iff.2 ⟨v, hv⟩), order_notifyIf, order_insert]
  · have hnew : ¬ l.contains name = true := by rw [contains, hv]; decide
    rw [hset, if_neg hnew, order_notifyIf, order_insert, order_push]

theorem contains_define (type : VarType) (initial : Value) :
    (l.define name type initial).contains n = true ↔ l.contains n = true ∨ n = name := by
  rw [define]
  split
  · exact contains_insert
  · rw [contains_insert, contains_congr table_push]

theorem order_define (type : VarType) (initial : Value) :
    (l.define name type initial).order =
      if l.contains name = true then l.order else l.order ++ [name] := by
  rw [define]
  split <;> rfl

theorem reset_cases (l : Ledger) (name : String) :
    (∃ v, l.table name = some v ∧
      l.reset name = (true, (l.insert name { v with value := v.initial }).notify name)) ∨
    (l.table name = none ∧ l.reset name = (false, l)) := by
  unfold reset
  cases hv : l.table name with
  | none => exact .inr ⟨rfl, rfl⟩
  | some v => exact .inl ⟨v, rfl, rfl⟩

theorem contains_reset : (l.reset name).2.contains n = l.contains n := by
  obtain ⟨v, hv, hreset⟩ | ⟨-, hreset⟩ := l.reset_cases name
  · rw [hreset, contains_congr table_notify, Bool.eq_iff_iff, contains_insert]
    refine ⟨fun h => h.elim id ?_, .inl⟩
    rintro rfl
    exact contains_iff.2 ⟨v, hv⟩
  · rw [hreset]

theorem order_reset : (l.reset name).2.order = l.order := by
  obtain ⟨v, -, hreset⟩ | ⟨-, hreset⟩ := l.reset_cases name
  · rw [hreset, order_notify, order_insert]
  · rw [hreset]

theorem contains_resetAll : l.resetAll.contains n = l.contains n := Option.isSome_map

/-! ## Any operation -/

theorem contains_perform (l : Ledger) (op : StoreOperation) :
    (l.perform op).2.contains n = true ↔
      (l.contains n = true ∧ op ≠ .clear) ∨ op.declares? = some n := by
  have hdeclares {name : String} (hop : op ≠ .clear) :
      l.contains n = true ∨ n = name ↔
        (l.contains n = true ∧ op ≠ .clear) ∨ some name = some n := by
    rw [Option.some.injEq, and_iff_left hop, eq_comm (a := n)]
  have hkeeps (hop : op ≠ .clear) (hnone : op.declares? = none) :
      l.contains n = true ↔
        (l.contains n = true ∧ op ≠ .clear) ∨ op.declares? = some n := by
    simp [hop, hnone]
  cases op with
  | define name type initial => exact (contains_define type initial).trans (hdeclares nofun)
  | defineText name type initial => exact (contains_define type _).trans (hdeclares nofun)
  | set name value notify => exact (contains_set value notify).trans (hdeclares nofun)
  | setText name text notify => exact (contains_set _ notify).trans (hdeclares nofun)
  | reset name => exact (Bool.eq_iff_iff.1 contains_reset).trans (hkeeps nofun rfl)
  | resetAll => exact (Bool.eq_iff_iff.1 contains_resetAll).trans (hkeeps nofun rfl)
  | clear => simp [perform, clear, contains, declares?]

/-- The names after an operation: none after clearing, and else one more at the end if a new name
is declared. -/
theorem order_perform (l : Ledger) (op : StoreOperation) :
    (op = .clear ∧ (l.perform op).2.order = []) ∨
    (op ≠ .clear ∧ (∀ name, op.declares? = some name → l.contains name = true) ∧
      (l.perform op).2.order = l.order) ∨
    (op ≠ .clear ∧ ∃ name, op.declares? = some name ∧ l.contains name = false ∧
      (l.perform op).2.order = l.order ++ [name]) := by
  have hdeclares {name : String} (hop : op ≠ .clear) (hname : op.declares? = some name)
      (horder : (l.perform op).2.order =
        if l.contains name = true then l.order else l.order ++ [name]) :
      (op = .clear ∧ (l.perform op).2.order = []) ∨
      (op ≠ .clear ∧ (∀ name, op.declares? = some name → l.contains name = true) ∧
        (l.perform op).2.order = l.order) ∨
      (op ≠ .clear ∧ ∃ name, op.declares? = some name ∧ l.contains name = false ∧
        (l.perform op).2.order = l.order ++ [name]) := by
    split at horder
    · next hold =>
      refine .inr (.inl ⟨hop, fun n hn => ?_, horder⟩)
      rw [hname] at hn
      exact Option.some.inj hn ▸ hold
    · next hnew => exact .inr (.inr ⟨hop, name, hname, Bool.eq_false_iff.2 hnew, horder⟩)
  cases op with
  | define name type initial => exact hdeclares nofun rfl (order_define type initial)
  | defineText name type initial => exact hdeclares nofun rfl (order_define type _)
  | set name value notify => exact hdeclares nofun rfl (order_set value notify)
  | setText name text notify => exact hdeclares nofun rfl (order_set _ notify)
  | reset name => exact .inr (.inl ⟨nofun, nofun, order_reset⟩)
  | resetAll => exact .inr (.inl ⟨nofun, nofun, rfl⟩)
  | clear => exact .inl ⟨rfl, rfl⟩

/-- The names in order are those of the table, each of them once. -/
structure Coherent (l : Ledger) : Prop where
  nodup : l.order.Nodup
  mem_iff : ∀ name, name ∈ l.order ↔ l.contains name = true

theorem coherent_new (listening : Bool) : Coherent { listening := listening } where
  nodup := List.nodup_nil
  mem_iff _ := by simp [contains]

theorem Coherent.perform (hl : l.Coherent) (op : StoreOperation) : (l.perform op).2.Coherent := by
  obtain ⟨rfl, horder⟩ | ⟨hop, hold, horder⟩ | ⟨hop, name, hname, hnew, horder⟩ :=
    l.order_perform op
  · refine ⟨horder ▸ List.nodup_nil, fun n => ?_⟩
    rw [horder, contains_perform]
    simp [declares?]
  · refine ⟨horder ▸ hl.nodup, fun n => ?_⟩
    rw [horder, contains_perform, hl.mem_iff, and_iff_left hop]
    exact ⟨.inl, fun h => h.elim id (hold n)⟩
  · have hfresh : name ∉ l.order := by rw [hl.mem_iff, hnew]; decide
    refine ⟨?_, fun n => ?_⟩
    · rw [horder, ← List.concat_eq_append]
      exact hl.nodup.concat hfresh
    · rw [horder, contains_perform, and_iff_left hop, hname, List.mem_append, List.mem_singleton,
        hl.mem_iff, Option.some.injEq, eq_comm (a := n)]

theorem Coherent.after (hl : l.Coherent) (ops : List StoreOperation) : (l.after ops).Coherent := by
  induction ops generalizing l with
  | nil => exact hl
  | cons op ops ih => exact ih (hl.perform op)

/-- What is declared after a run: what was so before, unless it was cleared, and what the run
declares. -/
theorem contains_after (l : Ledger) (ops : List StoreOperation) :
    (l.after ops).contains n = true ↔
      (l.contains n = true ∧ .clear ∉ ops) ∨ StoreOperation.Declares ops n := by
  induction ops generalizing l with
  | nil => simp [Ledger.after, StoreOperation.Declares]
  | cons op ops ih =>
    rw [Ledger.after, List.foldl_cons, ← Ledger.after, ih, contains_perform, declares_cons,
      List.mem_cons, not_or, or_and_right, and_assoc, or_assoc, ne_comm]

theorem order_prefix_perform {op : StoreOperation} (hop : op ≠ .clear) :
    l.order <+: (l.perform op).2.order := by
  obtain ⟨hclear, -⟩ | ⟨-, -, horder⟩ | ⟨-, name, -, -, horder⟩ := l.order_perform op
  · exact absurd hclear hop
  · exact horder ▸ List.prefix_refl _
  · exact horder ▸ List.prefix_append _ _

/-- Without clearing, new names come after the old ones. -/
theorem order_prefix_after {ops : List StoreOperation} (hops : .clear ∉ ops) :
    l.order <+: (l.after ops).order := by
  induction ops generalizing l with
  | nil => exact List.prefix_refl _
  | cons op ops ih =>
    rw [List.mem_cons, not_or] at hops
    exact (order_prefix_perform (Ne.symm hops.1)).trans (ih hops.2)

/-- Name, type and initial value at an index are those of one variable. -/
theorem Coherent.at_index (hl : l.Coherent) {i : Nat} (hi : l.order[i]? = some name) :
    ∃ v, l.table name = some v ∧ l.nameAt i = name ∧ l.typeAt i = v.type ∧
      l.initialAt i = v.initial.text := by
  obtain ⟨v, hv⟩ := contains_iff.1 ((hl.mem_iff name).1 (List.mem_of_getElem? hi))
  exact ⟨v, hv, by simp [nameAt, hi], by simp [typeAt, hi, hv], by simp [initialAt, hi, hv]⟩

/-! ## Types -/

def Typed (l : Ledger) : Prop := ∀ name v, l.table name = some v → v.Typed

theorem Typed.congr {t : Ledger} (hl : l.Typed) (ht : t.table = l.table) : t.Typed :=
  fun name v hv => hl name v (ht ▸ hv)

theorem Typed.insert (hl : l.Typed) (hv : v.Typed) : (l.insert name v).Typed := by
  intro n w hw
  rw [table_insert] at hw
  split at hw
  · exact Option.some.inj hw ▸ hv
  · exact hl n w hw

theorem Typed.defineText (hl : l.Typed) (type : VarType) (initial : String) :
    (l.defineText name type initial).Typed := by
  have hread := Value.type_read type initial
  rw [Ledger.defineText, define]
  split
  · exact hl.insert ⟨hread, hread⟩
  · exact (hl.congr table_push).insert ⟨hread, hread⟩

theorem Typed.setText (hl : l.Typed) (text : String) (notify : Bool) :
    (l.setText name text notify).2.Typed := by
  have hread := Value.type_read (l.typeOf name) text
  rw [Ledger.setText]
  obtain ⟨v, -, -, hset⟩ | ⟨v, hv, -, hset⟩ | ⟨hv, hset⟩ :=
    l.set_cases name (Value.read (l.typeOf name) text) notify
  · exact hset ▸ hl
  · have htype : l.typeOf name = v.type := by rw [typeOf, hv]; rfl
    have hput : Variable.Typed { v with value := Value.read (l.typeOf name) text } :=
      ⟨hread.trans htype, (hl name v hv).2⟩
    rw [hset]
    exact (hl.insert hput).congr (table_notifyIf notify)
  · have htype : l.typeOf name = .string := by rw [typeOf, hv]; rfl
    rw [htype] at hread
    rw [hset, htype]
    exact ((hl.congr table_push).insert ⟨hread, hread⟩).congr (table_notifyIf notify)

theorem Typed.reset (hl : l.Typed) : (l.reset name).2.Typed := by
  obtain ⟨v, hv, hreset⟩ | ⟨-, hreset⟩ := l.reset_cases name
  · have hput : Variable.Typed { v with value := v.initial } := ⟨(hl name v hv).2, (hl name v hv).2⟩
    rw [hreset]
    exact (hl.insert hput).congr table_notify
  · exact hreset ▸ hl

theorem Typed.resetAll (hl : l.Typed) : l.resetAll.Typed := by
  intro n w hw
  obtain ⟨v, hv, rfl⟩ := Option.map_eq_some_iff.1 hw
  exact ⟨(hl n v hv).2, (hl n v hv).2⟩

theorem Typed.perform (hl : l.Typed) {op : StoreOperation} (hop : op.isText = true) :
    (l.perform op).2.Typed := by
  cases op with
  | define name type initial => cases hop
  | defineText name type initial => exact hl.defineText type initial
  | set name value notify => cases hop
  | setText name text notify => exact hl.setText text notify
  | reset name => exact hl.reset
  | resetAll => exact hl.resetAll
  | clear => exact fun _ _ hv => nomatch hv

theorem Typed.after (hl : l.Typed) {ops : List StoreOperation}
    (hops : ∀ op ∈ ops, op.isText = true) : (l.after ops).Typed := by
  induction ops generalizing l with
  | nil => exact hl
  | cons op ops ih =>
    exact ih (hl.perform (hops op List.mem_cons_self))
      fun o ho => hops o (List.mem_cons_of_mem op ho)

/-! ## The store that is represented -/

def view (table : String → Option Variable) (order : List String) : List (String × Variable) :=
  order.filterMap fun name => (table name).map (name, ·)

theorem view_congr {table table' : String → Option Variable} {order : List String}
    (ht : ∀ name ∈ order, table name = table' name) : view table order = view table' order :=
  List.filterMap_congr fun name hname => by rw [ht name hname]

theorem view_cons {table : String → Option Variable} {order : List String}
    (hv : table name = some v) : view table (name :: order) = (name, v) :: view table order := by
  rw [view, List.filterMap_cons, hv]
  rfl

theorem lookup_view {table : String → Option Variable} {order : List String}
    (hn : n ∈ order ∨ table n = none) : (view table order).lookup n = table n := by
  induction order with
  | nil => exact (hn.resolve_left List.not_mem_nil).symm
  | cons name order ih =>
    by_cases he : n = name
    · subst he
      cases hv : table n with
      | none =>
        rw [view, List.filterMap_cons, hv]
        exact (ih (.inr hv)).trans hv
      | some v => rw [view_cons hv, List.lookup_cons_self]
    · have hrest := ih (hn.imp_left fun h => (List.mem_cons.1 h).resolve_left he)
      cases hv : table name with
      | none => rwa [view, List.filterMap_cons, hv]
      | some v => rwa [view_cons hv, List.lookup_cons, beq_false_of_ne he]

/-- Writing into the table is putting into the list, for a name in the order and for a new one. -/
theorem put_view {table : String → Option Variable} {order : List String} (hnodup : order.Nodup)
    (hall : ∀ n ∈ order, (table n).isSome = true) (name : String) (v : Variable) :
    Store.put name v (view table order) =
      view (fun n => if n = name then some v else table n)
        (if name ∈ order then order else order ++ [name]) := by
  induction order with
  | nil =>
    rw [if_neg List.not_mem_nil, List.nil_append, view_cons (if_pos rfl)]
    rfl
  | cons n order ih =>
    obtain ⟨hfresh, hnodup⟩ := List.nodup_cons.1 hnodup
    obtain ⟨w, hw⟩ := Option.isSome_iff_exists.1 (hall n List.mem_cons_self)
    rw [view_cons hw, Store.put]
    by_cases he : n = name
    · subst he
      rw [if_pos rfl, if_pos List.mem_cons_self, view_cons (if_pos rfl)]
      congr 1
      refine view_congr fun k hk => ?_
      rw [if_neg (ne_of_mem_of_not_mem hk hfresh)]
    · rw [if_neg he, ih hnodup fun k hk => hall k (List.mem_cons_of_mem n hk)]
      have hmem : name ∈ n :: order ↔ name ∈ order := by
        rw [List.mem_cons, or_iff_right (Ne.symm he)]
      simp only [hmem]
      split
      · exact (view_cons ((if_neg he).trans hw)).symm
      · rw [List.cons_append]
        exact (view_cons ((if_neg he).trans hw)).symm

theorem Coherent.get?_toStore (hl : l.Coherent) (name : String) :
    l.toStore.get? name = l.table name := by
  refine lookup_view ?_
  rw [hl.mem_iff, contains]
  cases l.table name with
  | none => exact .inr rfl
  | some v => exact .inl rfl

theorem Coherent.typeOf_toStore (hl : l.Coherent) (name : String) :
    l.toStore.typeOf name = l.typeOf name := by
  rw [Store.typeOf, hl.get?_toStore, typeOf]

/-- A variable that is written where it stands, or behind all others, is put into the store. -/
theorem Coherent.toStore_write (hl : l.Coherent) {t : Ledger}
    (ht : t.table = (l.insert name v).table)
    (horder : t.order = if l.contains name = true then l.order else l.order ++ [name])
    (hlistening : t.listening = l.listening) (hnotices : t.notices = l.notices) :
    t.toStore = l.toStore.withVariable name v := by
  have hall (n : String) (hn : n ∈ l.order) : (l.table n).isSome = true := (hl.mem_iff n).1 hn
  have hvars : view t.table t.order = Store.put name v (view l.table l.order) := by
    rw [put_view hl.nodup hall, ht, horder]
    simp only [hl.mem_iff]
    rfl
  rw [toStore, Store.withVariable, hlistening, hnotices]
  exact congrArg (Store.mk · _ _) hvars

theorem toStore_notify (hv : l.table name = some v) :
    (l.notify name).toStore = l.toStore.notice name v.value := by
  have hlistening : l.toStore.listening = l.listening := rfl
  rw [notify, hv, Store.notice, hlistening]
  dsimp only
  split <;> rfl

theorem toStore_notifyIf (hv : l.table name = some v) (wanted : Bool) :
    (l.notifyIf wanted name).toStore =
      if wanted = true then l.toStore.notice name v.value else l.toStore := by
  rw [notifyIf]
  split
  · exact toStore_notify hv
  · rfl

theorem Coherent.toStore_define (hl : l.Coherent) (name : String) (type : VarType)
    (initial : Value) : (l.define name type initial).toStore = l.toStore.define name type initial := by
  refine hl.toStore_write ?_ (order_define type initial) ?_ ?_
  all_goals
    rw [define]
    split <;> rfl

theorem Coherent.toStore_set (hl : l.Coherent) (name : String) (value : Value) (notify : Bool) :
    l.toStore.set name value notify =
      ((l.set name value notify).1, (l.set name value notify).2.toStore) := by
  rw [Store.set, hl.get?_toStore]
  obtain ⟨v, hv, hsame, hset⟩ | ⟨v, hv, hsame, hset⟩ | ⟨hv, hset⟩ := l.set_cases name value notify
  · rw [hset, hv]
    exact if_pos hsame
  · have hwrite : (l.insert name { v with value := value }).toStore =
        l.toStore.withVariable name { v with value := value } :=
      hl.toStore_write rfl (if_pos (contains_iff.2 ⟨v, hv⟩)).symm rfl rfl
    rw [hset, hv, toStore_notifyIf (if_pos rfl), hwrite]
    exact if_neg (by rw [hsame]; decide)
  · have hnew : ¬ l.contains name = true := by rw [contains, hv]; decide
    have hwrite : ((l.push name).insert name ⟨.string, value, value⟩).toStore =
        l.toStore.withVariable name ⟨.string, value, value⟩ :=
      hl.toStore_write rfl (if_neg hnew).symm rfl rfl
    rw [hset, hv, toStore_notifyIf (if_pos rfl), hwrite]

theorem Coherent.toStore_reset (hl : l.Coherent) (name : String) :
    l.toStore.reset name = ((l.reset name).1, (l.reset name).2.toStore) := by
  rw [Store.reset, hl.get?_toStore]
  obtain ⟨v, hv, hreset⟩ | ⟨hv, hreset⟩ := l.reset_cases name
  · have hwrite : (l.insert name { v with value := v.initial }).toStore =
        l.toStore.withVariable name { v with value := v.initial } :=
      hl.toStore_write rfl (if_pos (contains_iff.2 ⟨v, hv⟩)).symm rfl rfl
    rw [hreset, hv, toStore_notify (if_pos rfl), hwrite]
  · rw [hreset, hv]

theorem toStore_resetAll (l : Ledger) : l.resetAll.toStore = l.toStore.resetAll := by
  rw [toStore, toStore, resetAll, Store.resetAll, List.map_filterMap]
  congr 1
  apply List.filterMap_congr
  intro name _
  dsimp only
  cases l.table name <;> rfl

/-- Every operation answers in memory what it answers in the store that is represented, and
changes the two alike. -/
theorem Coherent.toStore_perform (hl : l.Coherent) (op : StoreOperation) :
    l.toStore.perform op = ((l.perform op).1, (l.perform op).2.toStore) := by
  cases op with
  | define name type initial =>
    exact Prod.ext rfl (hl.toStore_define name type initial).symm
  | defineText name type initial =>
    exact Prod.ext rfl (hl.toStore_define name type (Value.read type initial)).symm
  | set name value notify =>
    rw [Store.perform, hl.toStore_set]
    rfl
  | setText name text notify =>
    rw [Store.perform, Store.setText, hl.typeOf_toStore, hl.toStore_set]
    rfl
  | reset name =>
    rw [Store.perform, hl.toStore_reset]
    rfl
  | resetAll => exact Prod.ext rfl l.toStore_resetAll.symm
  | clear => rfl

theorem Coherent.toStore_after (hl : l.Coherent) (ops : List StoreOperation) :
    (l.after ops).toStore = l.toStore.after ops := by
  induction ops generalizing l with
  | nil => rfl
  | cons op ops ih =>
    rw [Store.after, List.foldl_cons, hl.toStore_perform]
    exact ih (hl.perform op)

/-! ## Any run -/

/-- After any run from an empty store the names in order are the declared ones, each once and at
an index that stays until the store is cleared, and an index means one variable. If all values
came as texts, they have the types of their variables. The store of the same run has the same
variables in the same order. -/
theorem order_after (listening : Bool) (ops : List StoreOperation) :
    let l := Ledger.after { listening := listening } ops
    l.order.Nodup ∧
    (∀ name, name ∈ l.order ↔ l.contains name = true) ∧
    (∀ name, name ∈ l.order ↔ ∃ before op later,
      ops = before ++ op :: later ∧ op.declares? = some name ∧ .clear ∉ later) ∧
    (∀ i name, l.order[i]? = some name → ∃ v, l.table name = some v ∧
      l.nameAt i = name ∧ l.typeAt i = v.type ∧ l.initialAt i = v.initial.text) ∧
    (∀ (more : List StoreOperation) (i : Nat) (name : String), .clear ∉ more →
      l.order[i]? = some name → (l.after more).order[i]? = some name) ∧
    ((∀ op ∈ ops, op.isText = true) → ∀ name v, l.table name = some v →
      v.value.type = v.type ∧ v.initial.type = v.type) ∧
    l.toStore = Store.after { listening := listening } ops := by
  intro l
  have hnew := coherent_new listening
  have hl : l.Coherent := hnew.after ops
  refine ⟨hl.nodup, hl.mem_iff, fun name => ?_, fun i name hi => hl.at_index hi, ?_, fun hops => ?_,
    hnew.toStore_after ops⟩
  · rw [hl.mem_iff, contains_after]
    exact or_iff_right fun h => nomatch h.1
  · intro more i name hmore hi
    obtain ⟨names, hnames⟩ := order_prefix_after (l := l) hmore
    rw [← hnames]
    exact List.getElem?_append_left (List.getElem?_eq_some_iff.1 hi).1 ▸ hi
  · have hempty : Typed { listening := listening } := fun _ _ hv => nomatch hv
    exact hempty.after hops

theorem order_after_redefined :
    let ops := [.defineText "b" .int "3", .setText "a" "x" true, .setText "b" "04" false]
    let more := [.define "b" .bool (.bool true), .set "c" (.int 1) true]
    let l := Ledger.after {} ops
    (∀ op ∈ ops, op.isText = true) ∧ StoreOperation.clear ∉ more ∧ l.order[0]? = some "b" ∧
    (l.after more).order[0]? = some "b" ∧
    (∃ v, l.table "b" = some v ∧ l.nameAt 0 = "b" ∧ l.typeAt 0 = v.type ∧
      l.initialAt 0 = v.initial.text) ∧
    ∀ name v, l.table name = some v → v.value.type = v.type ∧ v.initial.type = v.type := by
  intro ops more l
  have htexts : ∀ op ∈ ops, op.isText = true := by decide
  have hkept : StoreOperation.clear ∉ more := by decide
  have hfirst : l.order[0]? = some "b" := by decide
  obtain ⟨-, -, -, hindex, hstays, htyped, -⟩ := order_after false ops
  exact ⟨htexts, hkept, hfirst, hstays more 0 "b" hkept hfirst, hindex 0 "b" hfirst, htyped htexts⟩

end Ledger
end ScreenMarkup
