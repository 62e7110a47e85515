/-!
# Visual style

The style of one widget: every property is set or unset. All changes, from
rules, attributes and bindings alike, are single properties applied in turn.
-/

set_option autoImplicit false

namespace ScreenMarkup

inductive Font where
  | small | medium | large | xLarge
deriving DecidableEq, Inhabited

inductive TextAlign where
  | left | center | right
deriving DecidableEq, Inhabited

/-- What a label of fixed width does with text that does not fit. -/
inductive LongMode where
  | wrap | ellipsis | clip | scroll
deriving DecidableEq, Inhabited

inductive Side where
  | top | right | bottom | left
deriving DecidableEq, Inhabited

/-- The smallest font of at least the wanted size; size zero is unset. -/
def Font.nearest (size : Int) : Font :=
  if size = 0 then small
  else if size ≤ 16 then small
  else if size ≤ 32 then medium
  else if size ≤ 48 then large
  else xLarge

/-- The size of a font in pixels. -/
def Font.size : Font → Int
  | small => 16
  | medium => 32
  | large => 48
  | xLarge => 72

def Font.lineHeight : Font → Int
  | small => 18
  | medium => 37
  | large => 56
  | xLarge => 84

def TextAlign.ofKeyword (s : String) : TextAlign :=
  if s = "center" then center else if s = "right" then right else left

def LongMode.ofOverflow (s : String) : LongMode :=
  if s = "ellipsis" ∨ s = "dot" then ellipsis
  else if s = "clip" then clip
  else if s = "scroll" then scroll
  else wrap

inductive StyleChange where
  | textColor (c : Nat)
  | bgColor (c : Nat)
  | bgOpacity (o : Nat)
  | font (f : Font)
  | radius (r : Int)
  | padding (side : Side) (v : Int)
  | opacity (o : Nat)
  | textAlign (a : TextAlign)
  | borderWidth (w : Int)
deriving DecidableEq, Inhabited

structure Style where
  textColor : Option Nat := none
  bgColor : Option Nat := none
  bgOpacity : Option Nat := none
  font : Option Font := none
  radius : Option Int := none
  padTop : Option Int := none
  padRight : Option Int := none
  padBottom : Option Int := none
  padLeft : Option Int := none
  opacity : Option Nat := none
  textAlign : Option TextAlign := none
  borderWidth : Option Int := none
deriving DecidableEq, Inhabited

namespace Style

/-- The opacity of a background that covers what is behind it. -/
def cover : Nat := 255

def apply (s : Style) : StyleChange → Style
  | .textColor c => { s with textColor := some c }
  | .bgColor c => { s with bgColor := some c }
  | .bgOpacity o => { s with bgOpacity := some o }
  | .font f => { s with font := some f }
  | .radius r => { s with radius := some r }
  | .padding .top v => { s with padTop := some v }
  | .padding .right v => { s with padRight := some v }
  | .padding .bottom v => { s with padBottom := some v }
  | .padding .left v => { s with padLeft := some v }
  | .opacity o => { s with opacity := some o }
  | .textAlign a => { s with textAlign := some a }
  | .borderWidth w => { s with borderWidth := some w }

def effectiveFont (s : Style) : Font := s.font.getD .small

end Style
end ScreenMarkup
