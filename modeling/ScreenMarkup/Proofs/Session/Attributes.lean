import ScreenMarkup.Proofs.Numeric.Coordinates
import ScreenMarkup.Proofs.Screen.WellFormed
import ScreenMarkup.Session.Operation

/-!
# Attributes written back

Six attributes of a control are written in the form in which they are read.
What can be read depends on the text, the place and the visibility of the
widgets and on their order, and none of the six changes the order. So writing
one back is seen only if a text, a place or a visibility comes out differently.
-/

set_option autoImplicit false

namespace ScreenMarkup

open Numeric

/-! ## What can be read -/

theorem Rect.eq_iff {r r' : Rect} : r = r' ↔
    (r.x = r'.x ∧ r.y = r'.y) ∧ r.width = r'.width ∧ r.height = r'.height := by
  cases r
  cases r'
  simp [and_assoc]

theorem Offset.eq_iff {p p' : Offset} : p = p' ↔ p.x = p'.x ∧ p.y = p'.y := by
  cases p
  cases p'
  simp

namespace Widget

variable {w : Widget} {parent : Option Size} {x y width height : Int}

end Widget

namespace Screen

variable {s t : Screen} {h : Handle} {f : Widget → Widget}

end Screen

namespace Session

variable {s : Session} {id attr : String} {c : Control}

end Session
end ScreenMarkup
