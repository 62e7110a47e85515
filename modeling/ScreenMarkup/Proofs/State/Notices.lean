import ScreenMarkup.Proofs.State.Ledger

/-!
# Notices

A notice is given of each write and each reset that answers yes, if the write
asks for one, with the value that the variable has afterwards. Where nothing
is written without notice, the notices tell what all variables hold.
-/

set_option autoImplicit false

namespace ScreenMarkup

/-- The variable that an operation gives notice of if it answers yes. -/
def StoreOperation.reports? : StoreOperation → Option String
  | set name _ notify => if notify then some name else none
  | setText name _ notify => if notify then some name else none
  | reset name => some name
  | _ => none

namespace Ledger

variable {l : Ledger} {name : String} {v : Variable}

/-- The operations of a run that give notice: the variable, and the memory after the operation. -/
def reports (l : Ledger) : List StoreOperation → List (String × Ledger)
  | [] => []
  | op :: ops =>
    let step := l.perform op
    let told := if step.1 = some true then op.reports?.map (·, step.2) else none
    told.toList ++ step.2.reports ops

/-- Values with those of some notices in their place, the last one of each name. -/
def overwrite (values : String → Option Value) (log : List (String × Value)) :
    String → Option Value :=
  log.foldl (fun values e name => if name = e.1 then some e.2 else values name) values

/-! ## Single operations -/

theorem listening_notify : (l.notify name).listening = l.listening := by
  unfold notify
  split
  · split <;> rfl
  · rfl

theorem listening_notifyIf (wanted : Bool) :
    (l.notifyIf wanted name).listening = l.listening := by
  cases wanted
  · rfl
  · exact listening_notify

theorem listening_set (value : Value) (notify : Bool) :
    (l.set name value notify).2.listening = l.listening := by
  obtain ⟨v, -, -, hset⟩ | ⟨v, -, -, hset⟩ | ⟨-, hset⟩ := l.set_cases name value notify
  · rw [hset]
  · rw [hset]
    exact listening_notifyIf notify
  · rw [hset]
    exact listening_notifyIf notify

theorem listening_define (type : VarType) (initial : Value) :
    (l.define name type initial).listening = l.listening := by
  rw [define]
  split <;> rfl

theorem listening_perform (l : Ledger) (op : StoreOperation) :
    (l.perform op).2.listening = l.listening := by
  cases op with
  | define name type initial => exact listening_define type initial
  | defineText name type initial => exact listening_define type _
  | set name value notify => exact listening_set value notify
  | setText name text notify => exact listening_set _ notify
  | reset name =>
    show (l.reset name).2.listening = _
    obtain ⟨v, -, hreset⟩ | ⟨-, hreset⟩ := l.reset_cases name
    · rw [hreset]
      exact listening_notify
    · rw [hreset]
  | resetAll => rfl
  | clear => rfl

/-- The operation answers yes and gives notice of a variable, with the value that it has then. Of
all variables it wrote only this one. -/
def Tells (l : Ledger) (op : StoreOperation) : Prop :=
  ∃ name value, (l.perform op).1 = some true ∧ op.reports? = some name ∧
    (l.perform op).2.value? name = some value ∧
    (l.perform op).2.notices = l.notices ++ [(name, value)] ∧
    (l.perform op).2.value? = overwrite l.value? [(name, value)]

/-- The operation gives no notice, and is none that would after a write. -/
def Silent (l : Ledger) (op : StoreOperation) : Prop :=
  ((l.perform op).1 = some true → op.reports? = none) ∧
    (l.perform op).2.notices = l.notices ∧
    (op.reports?.isSome = true → (l.perform op).2.value? = l.value?)

theorem silent_of_none {op : StoreOperation} (hop : op.reports? = none)
    (hnotices : (l.perform op).2.notices = l.notices) : l.Silent op :=
  ⟨fun _ => hop, hnotices, fun hsome => by rw [hop] at hsome; cases hsome⟩

theorem silent_of_no {op : StoreOperation} (hop : l.perform op = (some false, l)) :
    l.Silent op := by
  rw [Silent, hop]
  exact ⟨nofun, rfl, fun _ => rfl⟩

/-- A variable that is written, where it stands or behind all others, and then given notice of. -/
theorem tells_of_write {op : StoreOperation} {t : Ledger} (hl : l.listening = true)
    (ht : t = l ∨ t = l.push name) (hname : op.reports? = some name)
    (hop : l.perform op = (some true, (t.insert name v).notify name)) : l.Tells op := by
  have hsame : t.table = l.table ∧ t.listening = l.listening ∧ t.notices = l.notices := by
    obtain rfl | rfl := ht <;> exact ⟨rfl, rfl, rfl⟩
  obtain ⟨htable, hlistening, hold⟩ := hsame
  have hvalue : ((t.insert name v).notify name).value? = overwrite l.value? [(name, v.value)] := by
    funext n
    rw [value?, table_notify, table_insert, htable]
    show _ = if n = name then some v.value else l.value? n
    split <;> rfl
  have hnotices : ((t.insert name v).notify name).notices = l.notices ++ [(name, v.value)] := by
    have hnamed : (t.insert name v).table name = some v := if_pos rfl
    rw [notify, hnamed, ← hold]
    exact congrArg Ledger.notices (if_pos (hlistening.trans hl))
  refine ⟨name, v.value, ?_⟩
  rw [hop]
  exact ⟨rfl, hname, by rw [hvalue]; exact if_pos rfl, hnotices, hvalue⟩

theorem set_tells (hl : l.listening = true) {op : StoreOperation} {value : Value} {notify : Bool}
    (hname : op.reports? = if notify = true then some name else none)
    (hop : l.perform op = (l.set name value notify).map some id) : l.Tells op ∨ l.Silent op := by
  cases notify with
  | false =>
    refine .inr (silent_of_none hname ?_)
    rw [hop]
    obtain ⟨v, -, -, hset⟩ | ⟨v, -, -, hset⟩ | ⟨-, hset⟩ := l.set_cases name value false
    all_goals
      rw [hset]
      rfl
  | true =>
    obtain ⟨v, -, -, hset⟩ | ⟨v, -, -, hset⟩ | ⟨-, hset⟩ := l.set_cases name value true
    · exact .inr (silent_of_no (hop.trans (by rw [hset]; rfl)))
    · exact .inl (tells_of_write hl (.inl rfl) hname (hop.trans (by rw [hset]; rfl)))
    · exact .inl (tells_of_write hl (.inr rfl) hname (hop.trans (by rw [hset]; rfl)))

theorem perform_tells (hl : l.listening = true) (op : StoreOperation) :
    l.Tells op ∨ l.Silent op := by
  have hdefine (name : String) (type : VarType) (initial : Value) :
      (l.define name type initial).notices = l.notices := by
    rw [define]
    split <;> rfl
  cases op with
  | define name type initial => exact .inr (silent_of_none rfl (hdefine name type initial))
  | defineText name type initial => exact .inr (silent_of_none rfl (hdefine name type _))
  | set name value notify => exact set_tells hl rfl rfl
  | setText name text notify => exact set_tells hl rfl rfl
  | reset name =>
    obtain ⟨v, -, hreset⟩ | ⟨-, hreset⟩ := l.reset_cases name
    · exact .inl (tells_of_write hl (.inl rfl) rfl (by rw [perform, hreset]; rfl))
    · exact .inr (silent_of_no (by rw [perform, hreset]; rfl))
  | resetAll => exact .inr (silent_of_none rfl rfl)
  | clear => exact .inr (silent_of_none rfl rfl)

/-! ## Runs -/

/-- A notice is that of a report: of the variable, with the value that it had then. -/
def Tallies (report : String × Ledger) (notice : String × Value) : Prop :=
  notice.1 = report.1 ∧ report.2.value? report.1 = some notice.2

theorem log_after (hl : l.listening = true) (ops : List StoreOperation) :
    ∃ log, (l.after ops).notices = l.notices ++ log ∧ (l.reports ops).Forall₂ Tallies log ∧
      ((∀ op ∈ ops, op.reports?.isSome = true) →
        (l.after ops).value? = overwrite l.value? log) := by
  induction ops generalizing l with
  | nil => exact ⟨[], (List.append_nil _).symm, .nil, fun _ => rfl⟩
  | cons op ops ih =>
    obtain ⟨log, hnotices, hlog, hvalues⟩ := ih ((l.listening_perform op).trans hl)
    obtain ⟨name, value, hyes, hname, hvalue, htold, hwrote⟩ | ⟨hno, hsame, hkept⟩ :=
      l.perform_tells hl op
    · refine ⟨(name, value) :: log, ?_, ?_, fun hops => ?_⟩
      · rw [Ledger.after, List.foldl_cons]
        exact hnotices.trans (by rw [htold, List.append_assoc, List.singleton_append])
      · rw [reports, if_pos hyes, hname]
        exact .cons ⟨rfl, hvalue⟩ hlog
      · exact (hvalues fun o ho => hops o (List.mem_cons_of_mem op ho)).trans (by rw [hwrote]; rfl)
    · refine ⟨log, hnotices.trans (by rw [hsame]), ?_, fun hops => ?_⟩
      · have hnone : (if (l.perform op).1 = some true
            then op.reports?.map (·, (l.perform op).2) else none) = none := by
          split
          · next hyes => rw [hno hyes, Option.map_none]
          · rfl
        rw [reports, hnone]
        exact hlog
      · have hop := hkept (hops op List.mem_cons_self)
        exact (hvalues fun o ho => hops o (List.mem_cons_of_mem op ho)).trans (by rw [hop])

/-- The notices of any run are those of its reports, in order: one of each write that asked for
notice and of each reset, if it answered yes, with the value that the variable then had. Where all
operations of the run are of these kinds, the values that the variables have after each of them
are those at the start overwritten by the notices up to then. -/
theorem notices_after (l : Ledger) (hl : l.listening = true) (ops : List StoreOperation) :
    (∃ log, (l.after ops).notices = l.notices ++ log ∧
      (l.reports ops).Forall₂ (fun report notice =>
        notice.1 = report.1 ∧ report.2.value? report.1 = some notice.2) log) ∧
    ((∀ op ∈ ops, op.reports?.isSome = true) → ∀ k,
      let t := l.after (ops.take k)
      t.value? = overwrite l.value? (t.notices.drop l.notices.length)) := by
  constructor
  · obtain ⟨log, hnotices, hlog, -⟩ := log_after hl ops
    exact ⟨log, hnotices, hlog⟩
  · intro hops k t
    obtain ⟨log, hnotices, -, hvalues⟩ := log_after hl (ops.take k)
    rw [hvalues fun op hop => hops op (List.mem_of_mem_take hop), hnotices, List.drop_left]

theorem notices_after_reset :
    let l : Ledger := { listening := true }
    let ops := [.set "a" (.int 1) true, .set "a" (.int 1) true, .setText "a" "2" true, .reset "a"]
    l.listening = true ∧ (∀ op ∈ ops, op.reports?.isSome = true) ∧
    (∃ log, (l.after ops).notices = l.notices ++ log ∧
      (l.reports ops).Forall₂ (fun report notice =>
        notice.1 = report.1 ∧ report.2.value? report.1 = some notice.2) log) ∧
    (l.after (ops.take 3)).value? =
      overwrite l.value? ((l.after (ops.take 3)).notices.drop l.notices.length) := by
  intro l ops
  have hl : l.listening = true := rfl
  have hops : ∀ op ∈ ops, op.reports?.isSome = true := by decide
  obtain ⟨hlog, hmirror⟩ := notices_after l hl ops
  exact ⟨hl, hops, hlog, hmirror hops 3⟩

end Ledger
end ScreenMarkup
