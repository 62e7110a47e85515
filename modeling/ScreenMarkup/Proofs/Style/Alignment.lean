import ScreenMarkup.Proofs.Style.Cascade

/-!
# Deferred alignment

What a rule does to a widget depends on the widget alone and on the size of its
parent, which the rule does not change. All declarations but those of vertical
alignment take effect one after the other in the order of their names. Then one
line of text is aligned vertically in the height, the font and the padding that
came out of them.
-/

set_option autoImplicit false

namespace ScreenMarkup

/-! ## One widget -/

namespace Widget

/-- What a declaration does to a widget in a parent of the given size. -/
def declare (parent : Option Size) (w : Widget) : Declaration → Widget
  | .textColor c => w.applyStyle (.textColor c)
  | .background c => (w.applyStyle (.bgColor c)).applyStyle (.bgOpacity Style.cover)
  | .font f => w.applyStyle (.font f)
  | .radius r => w.applyStyle (.radius r)
  | .zIndex _ => w
  | .width n => if 0 < n then w.setSize parent n w.rect.height else w
  | .height n => if 0 < n then w.setSize parent w.rect.width n else w
  | .left x => if 0 ≤ x then w.setPos x w.rect.y else w
  | .top y => if 0 ≤ y then w.setPos w.rect.x y else w
  | .padding (some side) p => if 0 ≤ p then w.applyStyle (.padding side p) else w
  | .padding none p =>
    if 0 ≤ p then (allSides.map (.padding · p)).foldl applyStyle w else w
  | .opacity o => w.applyStyle (.opacity o)
  | .textAlign a _ => w.applyStyle (.textAlign a)
  | .textValign _ => w

/-- The height that is left for text beside one line of it. -/
def room (w : Widget) : Int :=
  w.rect.height - w.style.padBottom.getD 0 - w.style.effectiveFont.lineHeight

end Widget

/-! ## One table of properties -/

/-- The vertical half of `h v`. -/
def verticalHalf? (value : String) : Option String :=
  (Text.cut? [' '] value.toList).map fun halves => String.ofList (Text.trim halves.2)

namespace NameTable

variable (t : NameTable) (size : Size)

def declarations : List Declaration :=
  t.entries.filterMap fun e => Declaration.parse? e.1 e.2 size

def valign? : Option String :=
  (t.get? "text-valign").or ((t.get? "text-align").bind verticalHalf?)

end NameTable

namespace Declaration

end Declaration

namespace Branch

variable {h : Handle}

mutual
theorem not_mem_above? (b : Branch) {as : List Handle} (ha : above? h b = some as) : h ∉ as := by
  obtain ⟨k, bs⟩ := b
  rw [above?] at ha
  split at ha
  · cases ha
    exact List.not_mem_nil
  · next hk =>
    obtain ⟨as, hin, rfl⟩ := Option.map_eq_some_iff.mp ha
    rw [List.mem_append, List.mem_singleton, not_or]
    exact ⟨not_mem_aboveAmong? bs hin, Ne.symm hk⟩
theorem not_mem_aboveAmong? (bs : List Branch) {as : List Handle}
    (ha : aboveAmong? h bs = some as) : h ∉ as := by
  match bs with
  | [] => cases ha
  | b :: bs =>
    rw [aboveAmong?, Option.or_eq_some_iff] at ha
    rcases ha with ha | ⟨-, ha⟩
    · exact not_mem_above? b ha
    · exact not_mem_aboveAmong? bs ha
end

end Branch

namespace Screen

variable {s : Screen} {h : Handle} {w v : Widget}

/-! ## One widget on the screen -/

theorem parent?_ne (s : Screen) (h : Handle) : s.parent? h ≠ some h := by
  rw [parent?, ancestors]
  cases habove : s.shape.above? h with
  | none => exact Option.some_ne_none h ∘ Eq.symm
  | some as =>
    intro hhead
    exact Branch.not_mem_above? s.shape habove (List.mem_of_mem_head? hhead)

end Screen

end ScreenMarkup
