/-!
# Name tables

Attributes and style properties are tables from names to values. The entries
stand in increasing order of names, and a later value for a name replaces the
earlier one, so equal tables have equal entries.
-/

set_option autoImplicit false

namespace ScreenMarkup

structure NameTable where
  entries : List (String × String)
  ordered : entries.Pairwise (fun a b => a.1 < b.1)
deriving DecidableEq

namespace NameTable

def empty : NameTable := ⟨[], List.Pairwise.nil⟩

def put (name value : String) : List (String × String) → List (String × String)
  | [] => [(name, value)]
  | e :: es =>
    if name < e.1 then (name, value) :: e :: es
    else if e.1 = name then (name, value) :: es
    else e :: put name value es

theorem mem_put {name value : String} {es : List (String × String)} {e : String × String}
    (h : e ∈ put name value es) : e = (name, value) ∨ e ∈ es := by
  induction es with
  | nil => exact .inl (by simpa [put] using h)
  | cons d es ih =>
    unfold put at h
    split at h
    · simpa using h
    · split at h <;> simp only [List.mem_cons] at h ⊢
      · rcases h with h | h
        · exact .inl h
        · exact .inr (.inr h)
      · rcases h with h | h
        · exact .inr (.inl h)
        · rcases ih h with h | h
          · exact .inl h
          · exact .inr (.inr h)

theorem put_ordered (name value : String) {es : List (String × String)}
    (h : es.Pairwise (fun a b => a.1 < b.1)) :
    (put name value es).Pairwise (fun a b => a.1 < b.1) := by
  induction es with
  | nil => simp [put]
  | cons d es ih =>
    obtain ⟨hd, hes⟩ := List.pairwise_cons.1 h
    unfold put
    split
    · next hlt =>
      refine List.pairwise_cons.2 ⟨fun e he => ?_, h⟩
      rcases List.mem_cons.1 he with rfl | he
      · exact hlt
      · exact String.lt_trans hlt (hd e he)
    · next hge =>
      split
      · next heq => exact List.pairwise_cons.2 ⟨fun e he => heq ▸ hd e he, hes⟩
      · next hne =>
        refine List.pairwise_cons.2 ⟨fun e he => ?_, ih hes⟩
        rcases mem_put he with rfl | he
        · exact Std.lt_of_le_of_ne (String.not_lt.1 hge) hne
        · exact hd e he

def insert (t : NameTable) (name value : String) : NameTable :=
  ⟨put name value t.entries, put_ordered name value t.ordered⟩

def ofList (entries : List (String × String)) : NameTable :=
  entries.foldl (fun t e => t.insert e.1 e.2) empty

def get? (t : NameTable) (name : String) : Option String := t.entries.lookup name

def contains (t : NameTable) (name : String) : Bool := (t.get? name).isSome

def isEmpty (t : NameTable) : Bool := t.entries.isEmpty

theorem lookup_cons_eq (d : String × String) (es : List (String × String)) (key : String) :
    (d :: es).lookup key = if key = d.1 then some d.2 else es.lookup key := by
  obtain ⟨name, value⟩ := d
  by_cases h : key = name
  · subst h; simp
  · have hb : (key == name) = false := beq_false_of_ne h
    rw [List.lookup_cons, hb, if_neg h]

theorem lookup_put (name value key : String) (es : List (String × String)) :
    (put name value es).lookup key = if key = name then some value else es.lookup key := by
  induction es with
  | nil => simp [put]
  | cons d es ih =>
    unfold put
    split
    · rw [lookup_cons_eq]
    · split
      · next heq =>
        simp only [lookup_cons_eq, heq]
        split <;> rfl
      · next hne =>
        simp only [lookup_cons_eq, ih]
        by_cases hk : key = d.1 <;> simp [hk, hne]

@[simp] theorem get?_insert (t : NameTable) (name value key : String) :
    (t.insert name value).get? key = if key = name then some value else t.get? key :=
  lookup_put name value key t.entries

end NameTable
end ScreenMarkup
