import Mathlib.Data.List.Chain
import ScreenMarkup.Proofs.NameTable
import ScreenMarkup.Proofs.Text.Cutting
import ScreenMarkup.Style.Rule

/-!
# Writing rules

A rule is written as `selector { name: value; … }`, with its properties in any
order. Rules whose parts have none of the characters that end them are read
back from their writings: a value may hold `:` and blanks of any kind inside.
-/

set_option autoImplicit false

namespace ScreenMarkup

open Text

namespace Style

/-! ## Comments -/

/-- No `/` stands right before a `*`. -/
def Uncommented (s : List Char) : Prop := s.IsChain fun a b => ¬(a = '/' ∧ b = '*')

theorem uncommented_of_contains {s : List Char} (h : contains ['/', '*'] s = false) :
    Uncommented s := by
  induction s with
  | nil => exact List.IsChain.nil
  | cons c s ih =>
    have hmark (a b : List Char) : c :: s ≠ a ++ ['/', '*'] ++ b := by
      intro he
      rw [he, contains_append] at h
      cases h
    have hs : contains ['/', '*'] s = false := by
      rw [← Bool.not_eq_true, contains_iff]
      rintro ⟨a, b, rfl⟩
      exact hmark (c :: a) b rfl
    refine List.isChain_cons.mpr ⟨?_, ih hs⟩
    rintro d hd ⟨rfl, rfl⟩
    obtain ⟨r, rfl⟩ : ∃ r, s = '*' :: r := by
      cases s with
      | nil => cases hd
      | cons e r => exact ⟨r, by rw [Option.some.inj hd]⟩
    exact hmark [] r rfl

/-- A character that belongs to no mark keeps apart what stands around it. -/
theorem Uncommented.bridge {a b : List Char} (ha : Uncommented a) {c : Char} (hc : c ≠ '/')
    (hc' : c ≠ '*') (hb : Uncommented b) : Uncommented (a ++ c :: b) := by
  refine List.isChain_append.mpr ⟨ha, List.isChain_cons.mpr ⟨?_, hb⟩, ?_⟩
  · rintro d - ⟨rfl, -⟩
    exact hc rfl
  · rintro d - e he ⟨-, rfl⟩
    exact hc' (Option.some.inj he)

theorem Uncommented.nil : Uncommented [] := List.IsChain.nil

theorem Uncommented.dropComments {s : List Char} (h : Uncommented s) :
    Style.dropComments s = s := by
  induction s with
  | nil => rfl
  | cons c s ih =>
    obtain ⟨hhead, hs⟩ := List.isChain_cons.mp h
    rw [Style.dropComments, ih hs]
    rintro r rfl rfl
    exact hhead '*' rfl ⟨rfl, rfl⟩

/-! ## Tokens -/

namespace Token

/-- Punctuation cuts a text in two, whatever stands around it. -/
theorem scan_append {c : Char} {t : Token} (hc : punctuation? c = some t) (a b : List Char) :
    scan (a ++ c :: b) = scan a ++ t :: scan b := by
  have hchunk : ∀ s, t ≠ chunk s := by
    rintro s rfl
    unfold punctuation? at hc
    repeat' split at hc
    all_goals cases hc
  induction a with
  | nil =>
    show scan (c :: b) = t :: scan b
    rw [scan, hc]
  | cons d a ih =>
    rw [List.cons_append, scan, scan, ih]
    cases punctuation? d with
    | some u => rfl
    | none =>
      cases scan a with
      | nil =>
        cases t with
        | chunk s => exact absurd rfl (hchunk s)
        | _ => rfl
      | cons u us => cases u <;> rfl

theorem mem_of_mem_scan {t : Token} {s : List Char} (ht : t ∈ scan s) {c : Char}
    (hc : c ∈ t.text) : c ∈ s := by
  rw [← join_scan s]
  exact List.mem_flatMap.mpr ⟨t, ht, hc⟩

end Token
end Style

open Style

/-! ## Selectors -/

/-- A part of a rule: not empty, trimmed, without the start of a comment and without the
characters that would end it. -/
structure IsPart (barred : List Char) (text : String) : Prop where
  nonempty : text.toList ≠ []
  trimmed : trim text.toList = text.toList
  uncommented : contains ['/', '*'] text.toList = false
  plain : ∀ c ∈ barred, c ∉ text.toList

-- Only the barred characters are gone through, not all characters there are.
instance (barred : List Char) (text : String) : Decidable (IsPart barred text) :=
  have : Decidable (∀ c ∈ barred, c ∉ text.toList) := List.decidableBAll _ barred
  decidable_of_iff (text.toList ≠ [] ∧ trim text.toList = text.toList ∧
      contains ['/', '*'] text.toList = false ∧ ∀ c ∈ barred, c ∉ text.toList)
    ⟨fun h => ⟨h.1, h.2.1, h.2.2.1, h.2.2.2⟩, fun h => ⟨h.1, h.2, h.3, h.4⟩⟩

namespace Selector

/-- A tag that is no other form of selector. -/
structure IsTag (text : String) : Prop extends IsPart ['{', '}'] text where
  undotted : '.' ∉ text.toList
  unhashed : text.toList.head? ≠ some '#'

instance (text : String) : Decidable (IsTag text) :=
  decidable_of_iff (IsPart ['{', '}'] text ∧ '.' ∉ text.toList ∧ text.toList.head? ≠ some '#')
    ⟨fun h => ⟨h.1, h.2.1, h.2.2⟩, fun h => ⟨h.1, h.2, h.3⟩⟩

def Writable : Selector → Prop
  | tag t => IsTag t
  | ofClass c => IsPart ['{', '}'] c
  | tagClass t c => IsTag t ∧ IsPart ['{', '}'] c
  | id i => IsPart ['{', '}'] i

instance : (r : Selector) → Decidable r.Writable
  | tag t => inferInstanceAs (Decidable (IsTag t))
  | ofClass c => inferInstanceAs (Decidable (IsPart _ c))
  | tagClass t c => inferInstanceAs (Decidable (IsTag t ∧ IsPart _ c))
  | id i => inferInstanceAs (Decidable (IsPart _ i))

theorem IsTag.exists_cons {t : String} (ht : IsTag t) :
    ∃ c s, t.toList = c :: s ∧ c ≠ '#' ∧ c ≠ '.' := by
  obtain ⟨c, s, hs⟩ := List.exists_cons_of_ne_nil ht.nonempty
  refine ⟨c, s, hs, ?_, ?_⟩
  · rintro rfl
    exact ht.unhashed (by rw [hs]; rfl)
  · rintro rfl
    exact ht.undotted (by rw [hs]; exact List.mem_cons_self)

/-- A text that starts with a tag is cut at its first dot. -/
theorem parse_of_tag {t text : String} (ht : IsTag t) {rest : List Char}
    (htext : text.toList = t.toList ++ rest) :
    parse text =
      match cut? ['.'] text.toList with
      | some (t, c) => tagClass (String.ofList t) (String.ofList c)
      | none => tag text := by
  obtain ⟨c, s, hs, hhash, hdot⟩ := ht.exists_cons
  rw [hs, List.cons_append] at htext
  rw [parse, htext]
  split
  · next he =>
    cases he
    exact absurd rfl hhash
  · next he =>
    cases he
    exact absurd rfl hdot
  · rfl

theorem Writable.parse {r : Selector} (hr : r.Writable) : Selector.parse r.text = r := by
  cases r with
  | tag t =>
    have ht : IsTag t := hr
    have hcut : cut? ['.'] t.toList = none := cut?_singleton_eq_none.mpr ht.undotted
    rw [text, parse_of_tag ht (List.append_nil _).symm, hcut]
  | ofClass c => simp [text, Selector.parse]
  | tagClass t c =>
    obtain ⟨ht, -⟩ := hr
    have htext : (t ++ "." ++ c).toList = t.toList ++ '.' :: c.toList := by simp
    have hcut : cut? ['.'] (t ++ "." ++ c).toList = some (t.toList, c.toList) :=
      cut?_singleton.mpr ⟨ht.undotted, htext⟩
    rw [text, parse_of_tag ht htext, hcut]
    simp
  | id i => simp [text, Selector.parse]

theorem Writable.uncommented {r : Selector} (hr : r.Writable) :
    Uncommented r.text.toList := by
  cases r with
  | tag t => exact uncommented_of_contains hr.toIsPart.uncommented
  | ofClass c =>
    have hc := uncommented_of_contains (IsPart.uncommented hr)
    simpa [text] using Uncommented.nil.bridge (c := '.') (by decide) (by decide) hc
  | tagClass t c =>
    obtain ⟨ht, hc⟩ := hr
    have h := (uncommented_of_contains ht.uncommented).bridge (c := '.') (by decide) (by decide)
      (uncommented_of_contains hc.uncommented)
    simpa [text] using h
  | id i =>
    have hi := uncommented_of_contains (IsPart.uncommented hr)
    simpa [text] using Uncommented.nil.bridge (c := '#') (by decide) (by decide) hi

theorem Writable.unbraced {r : Selector} (hr : r.Writable) : '{' ∉ r.text.toList := by
  have hbrace (s : String) (hs : IsPart ['{', '}'] s) : '{' ∉ s.toList := hs.plain '{' (by simp)
  cases r with
  | tag t => exact hbrace t hr.toIsPart
  | ofClass c => simpa [text] using hbrace c hr
  | tagClass t c => simpa [text] using ⟨hbrace t hr.1.toIsPart, hbrace c hr.2⟩
  | id i => simpa [text] using hbrace i hr

/-- Every form of selector is trimmed when its parts are. -/
theorem Writable.tight {r : Selector} (hr : r.Writable) : Tight r.text.toList := by
  have hpart {barred : List Char} {s : String} (hs : IsPart barred s) : Tight s.toList :=
    (trim_eq_self_iff _).mp hs.trimmed
  have hdot : Tight ['.'] := (trim_eq_self_iff _).mp (by decide)
  have hhash : Tight ['#'] := (trim_eq_self_iff _).mp (by decide)
  cases r with
  | tag t => exact hpart hr.toIsPart
  | ofClass c => simpa [text] using hdot.append (hpart hr)
  | tagClass t c => simpa [text] using (hpart hr.1.toIsPart).append (hdot.append (hpart hr.2))
  | id i => simpa [text] using hhash.append (hpart hr)

theorem Writable.nonempty {r : Selector} (hr : r.Writable) : r.text.toList ≠ [] := by
  cases r with
  | tag t => exact IsPart.nonempty hr.toIsPart
  | _ => simp [text]

end Selector

/-! ## Declarations -/

namespace Rule

/-- Text without punctuation of its own is added to a name. -/
theorem declarations_name (ts us : List Token) (hts : ∀ u ∈ ts, ∃ s, u = .chunk s)
    (n : List Char) (t : NameTable) :
    declarations 0 (.name n) t (ts ++ us) = declarations 0 (.name (n ++ Token.join ts)) t us := by
  induction ts generalizing n with
  | nil => simp [Token.join]
  | cons u ts ih =>
    obtain ⟨s, rfl⟩ := hts u List.mem_cons_self
    show declarations 0 (.name (n ++ s)) t (ts ++ us) = _
    rw [ih fun v hv => hts v (List.mem_cons_of_mem _ hv)]
    simp [Token.join, Token.text]

/-- Everything but a brace and a semicolon is added to a value. -/
theorem declarations_value (ts us : List Token) (hts : ∀ u ∈ ts, u ≠ .braceOpen ∧ u ≠ .semicolon)
    (n v : List Char) (t : NameTable) :
    declarations 0 (.value n v) t (ts ++ us) =
      declarations 0 (.value n (v ++ Token.join ts)) t us := by
  induction ts generalizing v with
  | nil => simp [Token.join]
  | cons u ts ih =>
    have hrest := ih (fun w hw => hts w (List.mem_cons_of_mem _ hw)) (v ++ u.text)
    have hjoin : v ++ Token.join (u :: ts) = v ++ u.text ++ Token.join ts := by simp [Token.join]
    rw [hjoin, ← hrest, List.cons_append]
    obtain ⟨hopen, hsemi⟩ := hts u List.mem_cons_self
    cases u with
    | braceOpen => exact absurd rfl hopen
    | semicolon => exact absurd rfl hsemi
    | braceClose => rfl
    | colon => rfl
    | chunk s => rfl

def IsName (name : String) : Prop := IsPart ['{', '}', ':', ';'] name

def IsValue (value : String) : Prop := IsPart ['{', '}', ';'] value

instance (name : String) : Decidable (IsName name) := inferInstanceAs (Decidable (IsPart _ name))

instance (value : String) : Decidable (IsValue value) :=
  inferInstanceAs (Decidable (IsPart _ value))

/-- One property, with its end. -/
def declaration (e : String × String) : List Char :=
  ' ' :: (e.1.toList ++ ':' :: ' ' :: (e.2.toList ++ [';']))

theorem trim_space_cons {s : List Char} (hs : trim s = s) : trim (' ' :: s) = s := by
  have hstart : trimStart (' ' :: s) = trimStart s := rfl
  rw [trim, hstart]
  exact hs

theorem mem_space_cons {c : Char} {s : List Char} (hc : c ≠ ' ') (hs : c ∉ s) : c ∉ ' ' :: s := by
  simp [hc, hs]

/-- One declaration is read, and nothing of it stays for the next one. -/
theorem declarations_declaration {e : String × String} (hn : IsName e.1) (hv : IsValue e.2)
    (t : NameTable) (s : List Char) :
    declarations 0 (.name []) t (Token.scan (declaration e ++ s)) =
      declarations 0 (.name []) (t.insert e.1 e.2) (Token.scan s) := by
  have htext : declaration e ++ s =
      (' ' :: e.1.toList) ++ ':' :: ((' ' :: e.2.toList) ++ ';' :: s) := by
    simp [declaration]
  have hname : ∀ u ∈ Token.scan (' ' :: e.1.toList), ∃ r, u = .chunk r := by
    intro u hu
    have hbarred (c : Char) (hc : c ∈ ['{', '}', ':', ';']) : c ∉ u.text := by
      intro hin
      have hne : c ≠ ' ' := by
        rintro rfl
        simp at hc
      exact mem_space_cons hne (hn.plain c hc) (Token.mem_of_mem_scan hu hin)
    cases u with
    | braceOpen => exact absurd List.mem_cons_self (hbarred '{' (by simp))
    | braceClose => exact absurd List.mem_cons_self (hbarred '}' (by simp))
    | colon => exact absurd List.mem_cons_self (hbarred ':' (by simp))
    | semicolon => exact absurd List.mem_cons_self (hbarred ';' (by simp))
    | chunk r => exact ⟨r, rfl⟩
  have hvalue : ∀ u ∈ Token.scan (' ' :: e.2.toList), u ≠ .braceOpen ∧ u ≠ .semicolon := by
    intro u hu
    constructor
    · rintro rfl
      exact mem_space_cons (by decide) (hv.plain '{' (by simp))
        (Token.mem_of_mem_scan hu List.mem_cons_self)
    · rintro rfl
      exact mem_space_cons (by decide) (hv.plain ';' (by simp))
        (Token.mem_of_mem_scan hu List.mem_cons_self)
  rw [htext, Token.scan_append (t := .colon) rfl, Token.scan_append (t := .semicolon) rfl,
    declarations_name _ _ hname, Token.join_scan, List.nil_append, declarations,
    declarations_value _ _ hvalue, Token.join_scan, List.nil_append, declarations, Pending.commit,
    trim_space_cons hn.trimmed, trim_space_cons hv.trimmed, if_neg, String.ofList_toList,
    String.ofList_toList]
  exact not_or.mpr ⟨hn.nonempty, hv.nonempty⟩

/-- What stands between the braces. -/
def body (es : List (String × String)) : List Char := es.flatMap declaration ++ [' ']

/-- No brace stands between the braces. -/
theorem not_mem_body {es : List (String × String)} (hes : ∀ e ∈ es, IsName e.1 ∧ IsValue e.2)
    {c : Char} (hc : c = '{' ∨ c = '}') : c ∉ body es := by
  intro hin
  rw [body, List.mem_append, List.mem_flatMap] at hin
  rcases hin with ⟨e, he, hin⟩ | hin
  · obtain ⟨hn, hv⟩ := hes e he
    have hname : c ∉ e.1.toList := hn.plain c (by rcases hc with rfl | rfl <;> simp)
    have hvalue : c ∉ e.2.toList := hv.plain c (by rcases hc with rfl | rfl <;> simp)
    rcases hc with rfl | rfl <;> simp [declaration, hname, hvalue] at hin
  · rcases hc with rfl | rfl <;> simp at hin

theorem declarations_body {es : List (String × String)}
    (hes : ∀ e ∈ es, IsName e.1 ∧ IsValue e.2) (t : NameTable) :
    declarations 0 (.name []) t (Token.scan (body es)) =
      es.foldl (fun t e => t.insert e.1 e.2) t := by
  induction es generalizing t with
  | nil => rfl
  | cons e es ih =>
    obtain ⟨hn, hv⟩ := hes e List.mem_cons_self
    rw [body, List.flatMap_cons, List.append_assoc, declarations_declaration hn hv]
    exact ih (fun d hd => hes d (List.mem_cons_of_mem _ hd)) _

theorem blockTable_body {es : List (String × String)}
    (hes : ∀ e ∈ es, IsName e.1 ∧ IsValue e.2) :
    blockTable (Token.scan (body es)) = NameTable.ofList es :=
  declarations_body hes .empty

/-! ## Rules -/

/-- The rule with its properties in a certain order. -/
def written (selector : Selector) (es : List (String × String)) : List Char :=
  selector.text.toList ++ ' ' :: '{' :: (body es ++ ['}'])

/-- The text is the rule, with its properties in some order. -/
def Writes (r : Rule) (s : List Char) : Prop :=
  ∃ es, es.Perm r.properties.entries ∧ s = written r.selector es

/-- There is a property, and every part can be told from what stands around it. -/
structure Writable (r : Rule) : Prop where
  selector : r.selector.Writable
  declared : r.properties.entries ≠ []
  parts : ∀ e ∈ r.properties.entries, IsName e.1 ∧ IsValue e.2

instance (r : Rule) : Decidable r.Writable :=
  decidable_of_iff (r.selector.Writable ∧ r.properties.entries ≠ [] ∧
      ∀ e ∈ r.properties.entries, IsName e.1 ∧ IsValue e.2)
    ⟨fun h => ⟨h.1, h.2.1, h.2.2⟩, fun h => ⟨h.1, h.2, h.3⟩⟩

/-- Without a brace inside, the block ends at the first closing one. -/
theorem block_append (ts us : List Token) (hts : ∀ t ∈ ts, t ≠ .braceOpen ∧ t ≠ .braceClose) :
    block 0 (ts ++ .braceClose :: us) = (ts, us) := by
  induction ts with
  | nil => rfl
  | cons t ts ih =>
    have hrest := ih fun u hu => hts u (List.mem_cons_of_mem _ hu)
    obtain ⟨hopen, hclose⟩ := hts t List.mem_cons_self
    cases t with
    | braceOpen => exact absurd rfl hopen
    | braceClose => exact absurd rfl hclose
    | _ => simp [block, hrest]

/-- The next rule is what stands before the first block, with that block. -/
theorem ofTokens_block {selector ts : List Token} (hs : .braceOpen ∉ selector) :
    ofTokens (selector ++ .braceOpen :: ts) =
      (make? (Token.join selector) (blockTable (block 0 ts).1)).toList ++
        ofTokens (block 0 ts).2 := by
  have hnot : ∀ t ∈ selector, (!isOpen t) = true := by
    intro t ht
    have hne : t ≠ .braceOpen := fun he => hs (he ▸ ht)
    simp [isOpen, hne]
  have hdrop : (selector ++ .braceOpen :: ts).dropWhile (!isOpen ·) = .braceOpen :: ts := by
    rw [List.dropWhile_append_of_pos hnot]
    rfl
  have htake : (selector ++ .braceOpen :: ts).takeWhile (!isOpen ·) = selector := by
    rw [List.takeWhile_append_of_pos hnot]
    simp [isOpen]
  rw [ofTokens]
  split
  · next he => rw [hdrop] at he; cases he
  · next rest he =>
    rw [hdrop] at he
    cases he
    rw [htake]

theorem ofTokens_cons {selector ts us : List Token} (hs : .braceOpen ∉ selector)
    (hts : ∀ t ∈ ts, t ≠ .braceOpen ∧ t ≠ .braceClose) :
    ofTokens (selector ++ .braceOpen :: (ts ++ .braceClose :: us)) =
      (make? (Token.join selector) (blockTable ts)).toList ++ ofTokens us := by
  rw [ofTokens_block hs, block_append ts us hts]

/-- A rule that is written is the next one read. -/
theorem Writable.ofTokens {r : Rule} (hr : r.Writable) {s : List Char} (hs : r.Writes s)
    (rest : List Char) :
    Rule.ofTokens (Token.scan (s ++ rest)) = r :: Rule.ofTokens (Token.scan rest) := by
  obtain ⟨es, hp, rfl⟩ := hs
  have hes : ∀ e ∈ es, IsName e.1 ∧ IsValue e.2 := fun e he => hr.parts e (hp.mem_iff.mp he)
  have htext : written r.selector es ++ rest =
      (r.selector.text.toList ++ [' ']) ++ '{' :: (body es ++ '}' :: rest) := by
    simp [written]
  have hselector : .braceOpen ∉ Token.scan (r.selector.text.toList ++ [' ']) := by
    intro hin
    have hmem := Token.mem_of_mem_scan hin (List.mem_cons_self (a := '{'))
    simp [hr.selector.unbraced] at hmem
  have hbraces : ∀ t ∈ Token.scan (body es), t ≠ .braceOpen ∧ t ≠ .braceClose := by
    intro t ht
    constructor
    · rintro rfl
      exact not_mem_body hes (.inl rfl) (Token.mem_of_mem_scan ht List.mem_cons_self)
    · rintro rfl
      exact not_mem_body hes (.inr rfl) (Token.mem_of_mem_scan ht List.mem_cons_self)
  have hdeclared : (NameTable.ofList es).isEmpty = false := by
    rw [NameTable.ofList_eq hp, NameTable.isEmpty, List.isEmpty_eq_false_iff]
    exact hr.declared
  have htrim : trim (r.selector.text.toList ++ [' ']) = r.selector.text.toList :=
    hr.selector.tight.trim_append (by simp [isBlank]) hr.selector.nonempty
  rw [htext, Token.scan_append (t := .braceOpen) rfl,
    Token.scan_append (t := .braceClose) rfl (body es) rest, ofTokens_cons hselector hbraces,
    Token.join_scan, blockTable_body hes, make?, htrim, if_neg, String.ofList_toList,
    hr.selector.parse, NameTable.ofList_eq hp]
  · rfl
  · simp [hr.selector.nonempty, hdeclared]

/-! ## Whole stylesheets -/

theorem uncommented_flatMap {es : List (String × String)}
    (hes : ∀ e ∈ es, IsName e.1 ∧ IsValue e.2) {s : List Char} (hs : Uncommented s) :
    Uncommented (es.flatMap declaration ++ s) := by
  induction es with
  | nil => exact hs
  | cons e es ih =>
    obtain ⟨hn, hv⟩ := hes e List.mem_cons_self
    have hrest := ih fun d hd => hes d (List.mem_cons_of_mem _ hd)
    have hvalue := (uncommented_of_contains hv.uncommented).bridge (c := ';') (by decide)
      (by decide) hrest
    have hspace := Uncommented.nil.bridge (c := ' ') (by decide) (by decide) hvalue
    have hname := (uncommented_of_contains hn.uncommented).bridge (c := ':') (by decide)
      (by decide) hspace
    have h := Uncommented.nil.bridge (c := ' ') (by decide) (by decide) hname
    simpa [declaration] using h

/-- No comment starts where two parts meet. -/
theorem Writable.uncommented {r : Rule} (hr : r.Writable) {s : List Char} (hs : r.Writes s)
    {rest : List Char} (hrest : Uncommented rest) : Uncommented (s ++ rest) := by
  obtain ⟨es, hp, rfl⟩ := hs
  have hes : ∀ e ∈ es, IsName e.1 ∧ IsValue e.2 := fun e he => hr.parts e (hp.mem_iff.mp he)
  have hclose := Uncommented.nil.bridge (c := '}') (by decide) (by decide) hrest
  have hspace := Uncommented.nil.bridge (c := ' ') (by decide) (by decide) hclose
  have hopen := Uncommented.nil.bridge (c := '{') (by decide) (by decide)
    (uncommented_flatMap hes hspace)
  have h := hr.selector.uncommented.bridge (c := ' ') (by decide) (by decide) hopen
  simpa [written, body] using h

theorem ofTokens_flatten {rules : List Rule} {texts : List (List Char)}
    (hw : List.Forall₂ Writes rules texts) (hr : ∀ r ∈ rules, r.Writable) :
    ofTokens (Token.scan texts.flatten) = rules := by
  induction hw with
  | nil => rw [List.flatten_nil, Token.scan, ofTokens]; rfl
  | cons hs _ ih =>
    rw [List.flatten_cons, (hr _ List.mem_cons_self).ofTokens hs,
      ih fun r h => hr r (List.mem_cons_of_mem _ h)]

theorem uncommented_flatten {rules : List Rule} {texts : List (List Char)}
    (hw : List.Forall₂ Writes rules texts) (hr : ∀ r ∈ rules, r.Writable) :
    Uncommented texts.flatten := by
  induction hw with
  | nil => exact Uncommented.nil
  | cons hs _ ih =>
    exact (hr _ List.mem_cons_self).uncommented hs (ih fun r h => hr r (List.mem_cons_of_mem _ h))

/-- Rules that are written one after the other are read back in order, each with its selector and
its properties. -/
theorem parseAll_written {rules : List Rule} (hr : ∀ r ∈ rules, r.Writable)
    {texts : List (List Char)} (hw : List.Forall₂ Writes rules texts) :
    parseAll (String.ofList texts.flatten) = rules := by
  rw [parseAll, String.toList_ofList, (uncommented_flatten hw hr).dropComments]
  exact ofTokens_flatten hw hr

/-- A value with `:` and blanks inside, and properties out of order. -/
theorem parseAll_written_pair :
    parseAll "button.big { src: a:b  c; color: red; }#x { width: 10; }" =
      [⟨.tagClass "button" "big", ⟨[("color", "red"), ("src", "a:b  c")], by decide⟩⟩,
        ⟨.id "x", ⟨[("width", "10")], by decide⟩⟩] := by
  have hwritable : ∀ r ∈ ([⟨.tagClass "button" "big",
      ⟨[("color", "red"), ("src", "a:b  c")], by decide⟩⟩,
      ⟨.id "x", ⟨[("width", "10")], by decide⟩⟩] : List Rule), r.Writable := by
    decide +kernel
  have htext : "button.big { src: a:b  c; color: red; }#x { width: 10; }" =
      String.ofList [written (.tagClass "button" "big") [("src", "a:b  c"), ("color", "red")],
        written (.id "x") [("width", "10")]].flatten := rfl
  rw [htext]
  exact parseAll_written hwritable
    (.cons ⟨_, List.Perm.swap _ _ _, rfl⟩ (.cons ⟨_, List.Perm.refl _, rfl⟩ .nil))

end Rule
end ScreenMarkup
