import ScreenMarkup.Screen.Basic
import ScreenMarkup.Style.Declaration
import ScreenMarkup.Style.Rule

/-!
# Styling a widget

Rules change a widget one after the other, and each rule by its properties in
the order of their names. Text is aligned vertically last in its rule, since
that depends on the height, the font and the padding that the rule gives.
-/

set_option autoImplicit false

namespace ScreenMarkup

def allSides : List Side := [.top, .right, .bottom, .left]

namespace Declaration

/-- The vertical keyword of a vertical declaration. -/
def valign? : Declaration → Option String
  | textValign v => some v
  | _ => none

/-- The vertical keyword of a horizontal declaration, which may have none. -/
def secondValign? : Declaration → Option (Option String)
  | textAlign _ v => some v
  | _ => none

def zIndex? : Declaration → Option Int
  | zIndex z => some z
  | _ => none

end Declaration

namespace Screen

/-- Puts one line of text at the center or the bottom of a height by the padding above it. -/
def alignText (s : Screen) (h : Handle) (valign : String) (height : Int) : Screen :=
  if height ≤ 0 then s
  else
    let style := s.style h
    let room := height - style.padBottom.getD 0 - style.effectiveFont.lineHeight
    let pad :=
      if valign = "center" then room.tdiv 2
      else if valign = "bottom" then room
      else 0
    if 0 < pad then s.applyStyle h (.padding .top pad) else s

/-- What a declaration does at once; a size that is not positive and a negative position or
padding do nothing. -/
def declare (s : Screen) (h : Handle) : Declaration → Screen
  | .textColor c => s.applyStyle h (.textColor c)
  | .background c => s.setBackground h c
  | .font f => s.applyStyle h (.font f)
  | .radius r => s.applyStyle h (.radius r)
  | .zIndex _ => s
  | .width w => if 0 < w then s.setSize h w (s.rect h).height else s
  | .height n => if 0 < n then s.setSize h (s.rect h).width n else s
  | .left x => if 0 ≤ x then s.setPos h x (s.rect h).y else s
  | .top y => if 0 ≤ y then s.setPos h (s.rect h).x y else s
  | .padding side p =>
    if 0 ≤ p then
      match side with
      | some side => s.applyStyle h (.padding side p)
      | none => s.applyStyles h (allSides.map (.padding · p))
    else s
  | .opacity o => s.applyStyle h (.opacity o)
  | .textAlign a _ => s.applyStyle h (.textAlign a)
  | .textValign _ => s

/-- The vertical alignment that a rule asks for: its own declaration, or the second keyword of
the horizontal one. -/
def wantedValign (ds : List Declaration) : Option String :=
  (ds.filterMap Declaration.valign?).getLast?.or
    (ds.filterMap Declaration.secondValign?).getLast?.join

/-- Applies the properties of one rule, and gives its z-index. -/
def applyProperties (s : Screen) (h : Handle) (properties : NameTable) (size : Size) :
    Option Int × Screen :=
  let ds := properties.entries.filterMap fun e => Declaration.parse? e.1 e.2 size
  let s := ds.foldl (·.declare h ·) s
  let s := match wantedValign ds with
    | some v => s.alignText h v (s.rect h).height
    | none => s
  ((ds.filterMap Declaration.zIndex?).getLast?, s)

/-- Applies the rules that select an element, and gives the z-index that wins. -/
def applyRules (s : Screen) (h : Handle) (sheet : Stylesheet) (tag id classes : String)
    (size : Size) : Option Int × Screen :=
  (sheet.matching tag id classes).foldl
    (fun acc r =>
      let step := acc.2.applyProperties h r.properties size
      (step.1.or acc.1, step.2))
    (none, s)

end Screen
end ScreenMarkup
