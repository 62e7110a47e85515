import Mathlib.Data.List.TakeWhile
import ScreenMarkup.State.Ledger

/-!
# Canonical texts

The canonical text of a 32-bit integer reads back as that integer, and the one
of a truth value as that truth value, so writing the text of a variable back to
it changes nothing. Read as a truth value, the text of a number differs from
the number itself, except for zero and for the integer one.
-/

set_option autoImplicit false

namespace ScreenMarkup

namespace Numeric
open Text

variable {c : Char} {n : Nat}

theorem not_isBlank_of_isDigit (hc : c.isDigit = true) : isBlank c = false := by
  have hrange : 48 ≤ c.toNat ∧ c.toNat ≤ 57 := by
    simp only [Char.isDigit, Bool.and_eq_true, decide_eq_true_eq] at hc
    exact hc
  simp [isBlank]
  omega

theorem digitsValue_toDigits (n : Nat) : digitsValue (Nat.toDigits 10 n) = n :=
  Nat.ofDigitChars_toDigits (by decide) (by decide)

theorem takeWhile_toDigits (n : Nat) :
    (Nat.toDigits 10 n).takeWhile Char.isDigit = Nat.toDigits 10 n :=
  List.takeWhile_eq_self_iff.mpr fun _ hc => Nat.isDigit_of_mem_toDigits (by decide) (by decide) hc

theorem readSign_of_isDigit {s : List Char} (hc : c.isDigit = true) :
    readSign (c :: s) = (false, c :: s) := by
  unfold readSign
  split
  · next h => cases h; exact absurd hc (by decide)
  · next h => cases h; exact absurd hc (by decide)
  · rfl

/-- The sign and the digits of a decimal number, whatever follows them. -/
theorem readSign_signed (negative : Bool) (n : Nat) (rest : List Char) :
    readSign (trimStart ((if negative then ['-'] else []) ++ (Nat.toDigits 10 n ++ rest))) =
      (negative, Nat.toDigits 10 n ++ rest) := by
  cases negative with
  | true => rfl
  | false =>
    obtain ⟨c, ds, hds⟩ := List.exists_cons_of_ne_nil (Nat.toDigits_ne_nil (n := n) (b := 10))
    have hc : c.isDigit = true :=
      Nat.isDigit_of_mem_toDigits (n := n) (by decide) (by decide) (hds ▸ List.mem_cons_self)
    rw [hds]
    show readSign ((c :: (ds ++ rest)).dropWhile isBlank) = _
    rw [List.dropWhile_cons_of_neg (by simp [not_isBlank_of_isDigit hc]), readSign_of_isDigit hc]
    rfl

/-- What is read is a 32-bit integer. -/
theorem leadingInt_mem (text : List Char) :
    minInt32 ≤ leadingInt text ∧ leadingInt text ≤ maxInt32 := by
  unfold leadingInt
  split
  next negative s _ =>
    extract_lets ds n
    split
    · decide
    · unfold minInt32 maxInt32
      omega

end Numeric

namespace Value
open Numeric Text

theorem readSign_intText (n : Int) : readSign (trimStart (intText n).toList) =
    (decide (n < 0), Nat.toDigits 10 n.natAbs) := by
  have h := readSign_signed (decide (n < 0)) n.natAbs []
  simpa [intText] using h

theorem leadingInt_intText {n : Int} (hlow : minInt32 ≤ n) (hhigh : n ≤ maxInt32) :
    leadingInt (intText n).toList = n := by
  have hvalue : (if decide (n < 0) = true then -(n.natAbs : Int) else n.natAbs) = n := by
    by_cases hn : n < 0
    · rw [if_pos (decide_eq_true hn)]
      omega
    · rw [if_neg (by simpa using hn)]
      omega
  unfold leadingInt
  rw [readSign_intText]
  dsimp only
  rw [takeWhile_toDigits, digitsValue_toDigits, hvalue, if_neg]
  · omega
  · unfold minInt32 maxInt32 at *
    simp [Nat.toDigits_ne_nil, minInt64, maxInt64]
    omega

theorem readBool_boolText (b : Bool) : readBool (boolText b) = b := by
  cases b <;> decide

theorem toList_intText (n : Int) :
    (intText n).toList = (if n < 0 then ['-'] else []) ++ Nat.toDigits 10 n.natAbs :=
  String.toList_ofList

theorem readBool_intText (n : Int) : readBool (intText n) = decide (n = 1) := by
  have htrue : intText n ≠ "true" := by
    intro ht
    have hmem : 't' ∈ (intText n).toList := by rw [ht]; decide
    rw [toList_intText, List.mem_append] at hmem
    rcases hmem with hmem | hmem
    · by_cases hn : n < 0 <;> simp [hn] at hmem
    · exact absurd (Nat.isDigit_of_mem_toDigits (by decide) (by decide) hmem) (by decide)
  have hone : intText n = "1" ↔ n = 1 := by
    constructor
    · intro ht
      have hlist := toList_intText n
      rw [ht] at hlist
      by_cases hn : n < 0
      · simp [hn] at hlist
      · rw [if_neg hn, List.nil_append] at hlist
        have hvalue := digitsValue_toDigits n.natAbs
        rw [← hlist, show digitsValue "1".toList = 1 by decide] at hvalue
        omega
    · rintro rfl
      decide
  simp [readBool, htrue, hone]

/-- The text of a single-precision number has a point, or is a word for no such number. -/
theorem readBool_floatText (x : Binary32) : readBool x.text = false := by
  cases x with
  | nan => rfl
  | infinite s => cases s <;> decide
  | finite s m q =>
    have hpoint : '.' ∈ (Binary32.finite s m q).text.toList := by
      simp [Binary32.text]
    have hne {t : String} (ht : '.' ∉ t.toList) : (Binary32.finite s m q).text ≠ t :=
      fun he => ht (he ▸ hpoint)
    simp [readBool, hne (t := "true") (by decide), hne (t := "1") (by decide)]

/-- Which values read as the same truth value through their texts. -/
theorem readBool_text_iff (x : Value) :
    readBool x.text = x.toBool ↔
      match x with
      | .string _ | .bool _ => True
      | .int n => n = 0 ∨ n = 1
      | .float y => y.isZero = true := by
  cases x with
  | string s => simp [text, toBool]
  | bool b => simp [text, toBool, readBool_boolText]
  | int n =>
    simp only [text, toBool, readBool_intText, decide_eq_decide]
    omega
  | float y =>
    simp only [text, toBool, readBool_floatText]
    cases y.isZero <;> simp

end Value

/-! ## Round trips -/

/-- A value of this type; a whole number has 32 bits. -/
def VarType.Admits : VarType → Value → Prop
  | .string, .string _ => True
  | .int, .int n => Numeric.minInt32 ≤ n ∧ n ≤ Numeric.maxInt32
  | .bool, .bool _ => True
  | .float, .float _ => True
  | _, _ => False

namespace Value

variable {type : VarType} {x : Value}

theorem admits_read (type : VarType) (s : String) : type.Admits (read type s) := by
  cases type with
  | string => trivial
  | int => exact Numeric.leadingInt_mem s.toList
  | bool => trivial
  | float => trivial

/-- Printing and reading go back to the value they started from. -/
theorem read_text (htype : type ≠ .float) (hx : type.Admits x) : read type x.text = x := by
  cases type with
  | string =>
    cases x with
    | string s => rfl
    | _ => exact hx.elim
  | int =>
    cases x with
    | int n => simp [read, text, leadingInt_intText hx.1 hx.2]
    | _ => exact hx.elim
  | bool =>
    cases x with
    | bool b => simp [read, text, readBool_boolText]
    | _ => exact hx.elim
  | float => exact absurd rfl htype

theorem same_self (htype : type ≠ .float) (hx : type.Admits x) : x.same x = true := by
  cases x with
  | float y =>
    cases type with
    | float => exact absurd rfl htype
    | _ => exact hx.elim
  | _ => simp [same]

end Value

theorem Store.setText_text {s : Store} {name : String} {v : Variable} (hv : s.get? name = some v)
    (htype : v.type ≠ .float) (hvalue : v.type.Admits v.value) (notify : Bool) :
    s.setText name (s.text name) notify = (false, s) := by
  have hread : Value.read (s.typeOf name) (s.text name) = v.value := by
    simp [typeOf, Store.text, hv, Value.read_text htype hvalue]
  rw [setText, hread, set, hv]
  exact if_pos (Value.same_self htype hvalue)

theorem Ledger.setText_text {l : Ledger} {name : String} {v : Variable}
    (hv : l.table name = some v) (htype : v.type ≠ .float) (hvalue : v.type.Admits v.value)
    (notify : Bool) : l.setText name (l.text name) notify = (false, l) := by
  have hread : Value.read (l.typeOf name) (l.text name) = v.value := by
    simp [typeOf, Ledger.text, value?, hv, Value.read_text htype hvalue]
  rw [setText, hread, set, hv]
  exact if_pos (Value.same_self htype hvalue)

/-- Texts, whole numbers and truth values survive their canonical texts: writing the text of a
variable back to it is no change, in the store and in its memory, and what was read once from any
text is read again from its own text. -/
theorem canonical_text_round_trip :
    (∀ (s : Store) (name : String) (v : Variable), s.get? name = some v → v.type ≠ .float →
      v.type.Admits v.value → ∀ notify, s.setText name (s.text name) notify = (false, s)) ∧
    (∀ (l : Ledger) (name : String) (v : Variable), l.table name = some v → v.type ≠ .float →
      v.type.Admits v.value → ∀ notify, l.setText name (l.text name) notify = (false, l)) ∧
    (∀ type : VarType, type ≠ .float → ∀ text : String,
      Value.read type (Value.read type text).text = Value.read type text) ∧
    ∀ i : Int32, Numeric.leadingInt (Value.intText i.toInt).toList = i.toInt := by
  refine ⟨fun s name v hv htype hvalue => Store.setText_text hv htype hvalue,
    fun l name v hv htype hvalue => Ledger.setText_text hv htype hvalue, ?_, ?_⟩
  · intro type htype text
    exact Value.read_text htype (Value.admits_read type text)
  · intro i
    exact Value.leadingInt_intText i.le_toInt (Int.le_of_lt_add_one i.toInt_lt)

/-- The smallest whole number. -/
theorem canonical_text_round_trip_smallest :
    let v : Variable := ⟨.int, .int Numeric.minInt32, .int 0⟩
    let s : Store := { vars := [("n", v)], listening := true }
    let l : Ledger := ({ listening := true } : Ledger).insert "n" v
    s.setText "n" (s.text "n") true = (false, s) ∧
      l.setText "n" (l.text "n") true = (false, l) ∧
      Value.read .int (Value.read .int " -9999999999x").text = .int Numeric.minInt32 := by
  intro v s l
  have hvalue : v.type.Admits v.value := ⟨by decide, by decide⟩
  refine ⟨canonical_text_round_trip.1 s "n" v rfl (by decide) hvalue true,
    canonical_text_round_trip.2.1 l "n" v rfl (by decide) hvalue true, ?_⟩
  rw [canonical_text_round_trip.2.2.1 .int (by decide)]
  decide

end ScreenMarkup
