import ScreenMarkup.Proofs.Markup.Locality
import ScreenMarkup.Proofs.Markup.Proper

/-!
# Writing markup

How an element may be written: its attributes in any order with any quotes
that fit, and blanks and comments wherever they change nothing. A start tag
that is written so is read back.
-/

set_option autoImplicit false

namespace ScreenMarkup

open Text

namespace Markup

/-! ## Gaps and quotes -/

def IsBlanks (b : List Char) : Prop := ∀ c ∈ b, isAsciiBlank c = true

/-- What may stand between two pieces: blanks, and comments that end. -/
inductive Gap : List Char → Prop
  | nil : Gap []
  | blank {c : Char} {s : List Char} (hc : isAsciiBlank c = true) (hs : Gap s) : Gap (c :: s)
  | comment {body s : List Char} (hb : contains "-->".toList body = false) (hs : Gap s) :
    Gap ("<!--".toList ++ body ++ "-->".toList ++ s)

def Quoting.write : Quoting → String → List Char
  | double, v => '"' :: (v.toList ++ ['"'])
  | single, v => '\'' :: (v.toList ++ ['\''])
  | bare, v => v.toList

/-- The attributes in order, each after a blank. -/
inductive WritesAttrs : List (String × String) → List Char → Prop
  | nil : WritesAttrs [] []
  | cons {name value : String} {es : List (String × String)} {b₀ b₁ b₂ s : List Char}
    (q : Quoting) (hq : q.Admits value) (hne : b₀ ≠ []) (h₀ : IsBlanks b₀) (h₁ : IsBlanks b₁)
    (h₂ : IsBlanks b₂) (hs : WritesAttrs es s) :
    WritesAttrs ((name, value) :: es)
      (b₀ ++ name.toList ++ b₁ ++ '=' :: b₂ ++ q.write value ++ s)

/-- A start tag: the attributes in any order, and blanks before the end. -/
inductive WritesStart (tag : String) (attrs : NameTable) : List Char → Prop
  | mk {es : List (String × String)} {s b : List Char} (hp : es.Perm attrs.entries)
    (hs : WritesAttrs es s) (hb : IsBlanks b) :
    WritesStart tag attrs ('<' :: tag.toList ++ s ++ b ++ ['>'])

mutual
/-- The text is a writing of the first element, and the second one is the same with the source
between its tags filled in, where a button keeps it. -/
inductive Writes : Element → List Char → Element → Prop
  | verbatim {e : Element} {start : List Char} (hv : isVerbatim e.tag = true)
    (hs : WritesStart e.tag e.attrs start) :
    Writes e (start ++ e.text.toList ++ closingTag e.tag) { e with inner := "" }
  | plain {e : Element} {start gap body : List Char} {children : List Element}
    (hv : isVerbatim e.tag = false) (hs : WritesStart e.tag e.attrs start) (hg : Gap gap)
    (hc : WritesAll e.children body children) :
    Writes e (start ++ (gap ++ e.text.toList ++ body) ++ closingTag e.tag)
      { e with
        children := children
        inner := if e.tag = "button" then String.ofList (gap ++ e.text.toList ++ body) else "" }

/-- The elements one after the other, with gaps around them. -/
inductive WritesAll : List Element → List Char → List Element → Prop
  | nil {gap : List Char} (hg : Gap gap) : WritesAll [] gap []
  | cons {e e' : Element} {es es' : List Element} {gap s t : List Char} (hg : Gap gap)
    (he : Writes e s e') (hes : WritesAll es t es') :
    WritesAll (e :: es) (gap ++ s ++ t) (e' :: es')
end

/-! ## Blanks -/

theorem skipBlanks_append {b : List Char} (hb : IsBlanks b) (s : List Char) :
    skipBlanks (b ++ s) = skipBlanks s :=
  List.dropWhile_append_of_pos hb

theorem skipBlanks_cons {c : Char} (hc : isAsciiBlank c = false) (s : List Char) :
    skipBlanks (c :: s) = c :: s :=
  List.dropWhile_cons_of_neg (by rw [hc]; decide)

/-- Blanks, and then a character that ends them. -/
theorem skipBlanks_to {b : List Char} (hb : IsBlanks b) {c : Char} (hc : isAsciiBlank c = false)
    (s : List Char) : skipBlanks (b ++ c :: s) = c :: s := by
  rw [skipBlanks_append hb, skipBlanks_cons hc]

/-- Reading goes on as long as it can. -/
theorem takeWhile_to {p : Char → Bool} {l s : List Char} (hl : ∀ c ∈ l, p c = true)
    (hs : ∀ c, s.head? = some c → p c = false) :
    (l ++ s).takeWhile p = l ∧ (l ++ s).dropWhile p = s := by
  rw [List.takeWhile_append_of_pos hl, List.dropWhile_append_of_pos hl]
  cases s with
  | nil => exact ⟨List.append_nil _, rfl⟩
  | cons c s =>
    have hc := hs c rfl
    rw [List.takeWhile_cons_of_neg (by rw [hc]; decide),
      List.dropWhile_cons_of_neg (by rw [hc]; decide), List.append_nil]
    exact ⟨rfl, rfl⟩

/-! ## Names -/

theorem le_of_isLower {c : Char} (hc : c.isLower = true) : 97 ≤ c.val.toNat :=
  UInt32.le_iff_toNat_le.mp (of_decide_eq_true (Bool.and_eq_true_iff.mp hc).1)

theorem le_of_isDigit {c : Char} (hc : c.isDigit = true) : c.val.toNat ≤ 57 :=
  UInt32.le_iff_toNat_le.mp (of_decide_eq_true (Bool.and_eq_true_iff.mp hc).2)

theorem toLower_of_lower {c : Char} (hc : isLowerNameChar c = true) : c.toLower = c := by
  apply dif_neg
  rintro ⟨h₁, h₂⟩
  rw [ge_iff_le, UInt32.le_iff_toNat_le] at h₁
  rw [UInt32.le_iff_toNat_le] at h₂
  change 65 ≤ c.val.toNat at h₁
  change c.val.toNat ≤ 90 at h₂
  simp only [isLowerNameChar, Bool.or_eq_true, decide_eq_true_eq] at hc
  rcases hc with (((h | h) | rfl) | rfl) | rfl
  · have hfrom := le_of_isLower h
    omega
  · have hto := le_of_isDigit h
    omega
  · exact absurd h₁ (by decide)
  · exact absurd h₂ (by decide)
  · exact absurd h₁ (by decide)

theorem isNameChar_of_lower {c : Char} (hc : isLowerNameChar c = true) : isNameChar c = true := by
  rw [isNameChar_eq, hc, Bool.or_true]

namespace IsName

variable {name : String}

theorem lowered (hn : IsName name) : Markup.lowered name.toList = name := by
  have hmap : name.toList.map Char.toLower = name.toList.map id :=
    List.map_congr_left fun c hc => toLower_of_lower (hn.2 c hc)
  rw [Markup.lowered, hmap, List.map_id, String.ofList_toList]

theorem isNameChar (hn : IsName name) : ∀ c ∈ name.toList, Markup.isNameChar c = true :=
  fun c hc => isNameChar_of_lower (hn.2 c hc)

/-- A name is read up to the first character that belongs to none. -/
theorem takeWhile (hn : IsName name) {s : List Char}
    (hs : ∀ c, s.head? = some c → Markup.isNameChar c = false) :
    (name.toList ++ s).takeWhile Markup.isNameChar = name.toList ∧
      (name.toList ++ s).dropWhile Markup.isNameChar = s :=
  takeWhile_to hn.isNameChar hs

theorem exists_cons (hn : IsName name) : ∃ c s, name.toList = c :: s ∧
    Markup.isNameChar c = true := by
  cases h : name.toList with
  | nil => exact absurd (String.toList_eq_nil_iff.mp h) hn.1
  | cons c s =>
    refine ⟨c, s, rfl, hn.isNameChar c ?_⟩
    rw [h]
    exact List.mem_cons_self

end IsName

/-! ## Attributes -/

theorem isBareEnd_of_blank {c : Char} (hc : isAsciiBlank c = true) : isBareEnd c = true := by
  rw [isBareEnd, hc]
  rfl

/-- Blanks and the signs of markup belong to no name. -/
theorem isNameChar_of_blank {c : Char} (hc : isAsciiBlank c = true) : isNameChar c = false := by
  simp only [isAsciiBlank, Bool.or_eq_true, decide_eq_true_eq] at hc
  rcases hc with (((rfl | rfl) | rfl) | rfl) | rfl <;> decide

theorem readValue_write {q : Quoting} {v : String} (hq : q.Admits v) {s : List Char}
    (hs : ∀ c, s.head? = some c → isBareEnd c = true) :
    readValue (q.write v ++ s) = (v, s) := by
  have hquoted (c : Char) (hc : c = '"' ∨ c = '\'') (hv : c ∉ v.toList) :
      readValue (c :: (v.toList ++ [c]) ++ s) = (v, s) := by
    have hne : ∀ d ∈ v.toList, decide (d ≠ c) = true := by
      intro d hd
      apply decide_eq_true
      rintro rfl
      exact hv hd
    obtain ⟨htake, hdrop⟩ := takeWhile_to (p := (decide <| · ≠ c)) (s := c :: s) hne
      fun d hd => by
        cases hd
        simp
    rw [List.cons_append, List.append_assoc, List.singleton_append, readValue, if_pos hc, htake,
      hdrop, String.ofList_toList]
    rfl
  cases q with
  | double => exact hquoted '"' (.inl rfl) hq
  | single => exact hquoted '\'' (.inr rfl) hq
  | bare =>
    obtain ⟨hne, hdouble, hsingle, hend⟩ := hq
    obtain ⟨htake, hdrop⟩ := takeWhile_to (p := fun c => !isBareEnd c) (l := v.toList) (s := s)
      (fun c hc => by rw [hend c hc]; rfl) fun c hc => by rw [hs c hc]; rfl
    show readValue (v.toList ++ s) = (v, s)
    cases hv : v.toList with
    | nil => exact absurd (String.toList_eq_nil_iff.mp hv) hne
    | cons c t =>
      rw [hv] at htake hdrop hdouble hsingle
      have hquote : ¬ (c = '"' ∨ c = '\'') := by
        rintro (rfl | rfl)
        · exact hdouble rfl
        · exact hsingle rfl
      rw [List.cons_append] at htake hdrop ⊢
      rw [readValue, if_neg hquote, htake, hdrop, ← hv, String.ofList_toList]

/-- A written value starts with no blank. -/
theorem skipBlanks_write {q : Quoting} {v : String} (hq : q.Admits v) (s : List Char) :
    skipBlanks (q.write v ++ s) = q.write v ++ s := by
  cases q with
  | double => exact skipBlanks_cons (by decide) _
  | single => exact skipBlanks_cons (by decide) _
  | bare =>
    obtain ⟨hne, -, -, hend⟩ := hq
    show skipBlanks (v.toList ++ s) = v.toList ++ s
    cases hv : v.toList with
    | nil => exact absurd (String.toList_eq_nil_iff.mp hv) hne
    | cons c t =>
      apply skipBlanks_cons
      have hc := hend c (by rw [hv]; exact List.mem_cons_self)
      rw [isBareEnd, Bool.or_eq_false_iff, Bool.or_eq_false_iff] at hc
      exact hc.1.1

theorem readAssigned_write {q : Quoting} {v : String} (hq : q.Admits v) {b₁ b₂ s : List Char}
    (h₁ : IsBlanks b₁) (h₂ : IsBlanks b₂) (hs : ∀ c, s.head? = some c → isBareEnd c = true) :
    readAssigned (b₁ ++ '=' :: (b₂ ++ (q.write v ++ s))) = (v, s) := by
  rw [readAssigned, skipBlanks_to h₁ (by decide)]
  show readValue (skipBlanks (b₂ ++ (q.write v ++ s))) = (v, s)
  rw [skipBlanks_append h₂, skipBlanks_write hq, readValue_write hq hs]

theorem readAttrs_end {b : List Char} (hb : IsBlanks b) (s : List Char) :
    readAttrs (b ++ '>' :: s) = ([], '>' :: s) := by
  have hskip := skipBlanks_to hb (c := '>') (by decide) s
  rw [readAttrs_of_cons hskip, if_pos (.inl rfl)]

theorem readAttrs_name {b : List Char} (hb : IsBlanks b) {name : String} (hn : IsName name)
    {s : List Char} (hs : ∀ c, s.head? = some c → isNameChar c = false) :
    readAttrs (b ++ (name.toList ++ s)) =
      ((name, (readAssigned s).1) :: (readAttrs (readAssigned s).2).1,
        (readAttrs (readAssigned s).2).2) := by
  obtain ⟨c, t, hname, hc⟩ := hn.exists_cons
  obtain ⟨htake, hdrop⟩ := hn.takeWhile hs
  have hblank : isAsciiBlank c = false := by
    rw [← Bool.not_eq_true]
    intro h
    rw [isNameChar_of_blank h] at hc
    cases hc
  have hend : ¬ (c = '>' ∨ c = '/') := by
    rintro (rfl | rfl)
    · exact absurd hc (by decide)
    · exact absurd hc (by decide)
  have hskip : skipBlanks (b ++ (name.toList ++ s)) = c :: (t ++ s) := by
    rw [hname, List.cons_append, skipBlanks_to hb hblank]
  rw [hname, List.cons_append] at htake hdrop
  rw [List.dropWhile_cons_of_pos hc] at hdrop
  rw [readAttrs_of_cons hskip, if_neg hend, if_pos hc, htake, hdrop, ← hname, hn.lowered]

theorem head_of_blanks {b : List Char} (hb : IsBlanks b) {c : Char} {s : List Char} {d : Char}
    (hd : (b ++ c :: s).head? = some d) : isAsciiBlank d = true ∨ d = c := by
  cases b with
  | nil =>
    cases hd
    exact .inr rfl
  | cons e b =>
    cases hd
    exact .inl (hb d List.mem_cons_self)

theorem WritesAttrs.head {es : List (String × String)} {s : List Char} (hw : WritesAttrs es s)
    {b r : List Char} (hb : IsBlanks b) {d : Char} (hd : (s ++ (b ++ '>' :: r)).head? = some d) :
    isAsciiBlank d = true ∨ d = '>' := by
  cases hw with
  | nil => exact head_of_blanks hb hd
  | @cons _ _ _ b₀ _ _ _ _ _ hne h₀ _ _ _ =>
    cases b₀ with
    | nil => exact absurd rfl hne
    | cons e b₀ =>
      cases hd
      exact .inl (h₀ d List.mem_cons_self)

/-- Written attributes are read back. -/
theorem WritesAttrs.read {es : List (String × String)} {s : List Char} (hw : WritesAttrs es s)
    (hn : ∀ a ∈ es, IsName a.1) {b : List Char} (hb : IsBlanks b) (r : List Char) :
    readAttrs (s ++ (b ++ '>' :: r)) = (es, '>' :: r) := by
  induction hw with
  | nil => exact readAttrs_end hb r
  | @cons name value es b₀ b₁ b₂ s q hq hne h₀ h₁ h₂ hs ih =>
    have hrest := ih fun a ha => hn a (List.mem_cons_of_mem _ ha)
    have hvalue := readAssigned_write hq h₁ h₂ (s := s ++ (b ++ '>' :: r)) fun d hd => by
      rcases hs.head hb hd with h | rfl
      · exact isBareEnd_of_blank h
      · rfl
    have hname : ∀ d, (b₁ ++ '=' :: (b₂ ++ (q.write value ++ (s ++ (b ++ '>' :: r))))).head? =
        some d → isNameChar d = false := by
      intro d hd
      rcases head_of_blanks h₁ hd with h | rfl
      · exact isNameChar_of_blank h
      · rfl
    have hread := readAttrs_name h₀ (hn _ List.mem_cons_self) hname
    rw [hvalue, hrest] at hread
    simpa only [List.append_assoc, List.cons_append] using hread

/-! ## Tags -/

theorem readTag_name {c : Char} (hc : isNameChar c = true) (s : List Char) :
    readTag (c :: s) = readStart (c :: s) := by
  have hblank : isAsciiBlank c = false := by
    rw [← Bool.not_eq_true]
    intro h
    rw [isNameChar_of_blank h] at hc
    cases hc
  rw [readTag]
  · rw [skipBlanks_cons hblank]
  · rintro r he
    cases he
    exact absurd hc (by decide)
  · rintro r he
    cases he
    exact absurd hc (by decide)
  · rintro r he
    cases he
    exact absurd hc (by decide)
  · rintro r he
    cases he
    exact absurd hc (by decide)

theorem next_tag (s : List Char) : next '<' s = readTag s := by
  rw [next, if_neg (by decide), if_pos rfl]

/-- A start tag is read up to its end, with its name in any case. -/
theorem WritesAttrs.next {es : List (String × String)} {s : List Char} (hs : WritesAttrs es s)
    (ha : ∀ a ∈ es, IsName a.1) {name : List Char} (hne : name ≠ [])
    (hn : ∀ c ∈ name, isNameChar c = true) {b : List Char} (hb : IsBlanks b) (r : List Char) :
    Markup.next '<' (name ++ s ++ b ++ ['>'] ++ r) =
      readTagEnd (lowered name) (NameTable.ofList es) ('>' :: r) := by
  have hattrs := hs.read ha hb r
  obtain ⟨htake, hdrop⟩ := takeWhile_to (s := s ++ (b ++ '>' :: r)) hn fun d hd => by
    rcases hs.head hb hd with h | rfl
    · exact isNameChar_of_blank h
    · rfl
  have hsource : name ++ s ++ b ++ ['>'] ++ r = name ++ (s ++ (b ++ '>' :: r)) := by
    simp only [List.append_assoc, List.singleton_append]
  have hstart : readTag (name ++ (s ++ (b ++ '>' :: r))) =
      readStart (name ++ (s ++ (b ++ '>' :: r))) := by
    obtain ⟨c, t, rfl⟩ := List.exists_cons_of_ne_nil hne
    exact readTag_name (hn c List.mem_cons_self) _
  rw [hsource, next_tag, hstart, readStart, htake, hdrop, if_neg hne, hattrs]

/-- A written start tag is read up to its end. -/
theorem WritesStart.read {tag : String} {attrs : NameTable} {start : List Char}
    (hw : WritesStart tag attrs start) (ht : IsName tag)
    (ha : ∀ a ∈ attrs.entries, IsName a.1 ∧ IsValue a.2) (r : List Char) :
    ∃ s, start = '<' :: s ∧ next '<' (s ++ r) = readTagEnd tag attrs ('>' :: r) := by
  obtain ⟨hp, hs, hb⟩ := hw
  next es s b =>
  refine ⟨tag.toList ++ s ++ b ++ ['>'], rfl, ?_⟩
  have hne : tag.toList ≠ [] := fun h => ht.1 (String.toList_eq_nil_iff.mp h)
  have hread := hs.next (fun a h => (ha a (hp.subset h)).1) hne ht.isNameChar hb r
  rw [hread, ht.lowered, NameTable.ofList_eq hp]

theorem readTagEnd_gt (tag : String) (attrs : NameTable) (r : List Char) :
    readTagEnd tag attrs ('>' :: r) =
      if isVerbatim tag then
        (.whole tag attrs (String.ofList (readVerbatim tag r).1), (readVerbatim tag r).2)
      else (.opening tag attrs, r) := rfl

/-- A verbatim body ends with its closing tag. -/
theorem readVerbatim_closingTag {tag text : String} (ht : IsName tag)
    (htext : contains (closingTag tag) text.toList = false) (r : List Char) :
    readVerbatim tag (text.toList ++ closingTag tag ++ r) = (text.toList, r) := by
  have hlast : '>' ∉ "</".toList ++ tag.toList := by
    intro h
    rcases List.mem_append.mp h with h | h
    · revert h
      decide
    · exact absurd (ht.isNameChar _ h) (by decide)
  rw [readVerbatim, closingTag, cut?_append hlast htext]
  rfl

end Markup
end ScreenMarkup
