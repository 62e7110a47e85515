import ScreenMarkup.Content.ButtonLabel
import ScreenMarkup.Session.Build.Registration

/-!
# Labels, buttons and rich text

The widgets that show text. A button shows a label, an icon, or both.
-/

set_option autoImplicit false

namespace ScreenMarkup.Session

/-- The vertical alignment of a label with a height: as written, otherwise the center. -/
def labelValign (e : Element) : String :=
  let both := e.attr "text-align"
  let own := e.attr "text-valign"
  if own ≠ "" then own
  else if both.toList.contains ' ' then (Align.splitPair both).2
  else "center"

/-- A written size, and with a width what happens to text that is too long. -/
def sizeLabel (s : Session) (h : Handle) (e : Element) : Session :=
  let w := s.across e "w" 0
  let n := s.down e "h" 0
  if w ≠ 0 ∨ n ≠ 0 then
    s.mapScreen fun screen =>
      let screen := screen.resize h w n
      if w ≠ 0 then screen.configure h (.longMode (LongMode.ofOverflow (e.attr "overflow")))
      else screen
  else s

def alignLabel (s : Session) (h : Handle) (e : Element) : Session :=
  let horizontal := (Align.splitPair (e.attr "text-align")).1
  let n := s.down e "h" 0
  s.mapScreen fun screen =>
    let screen :=
      if horizontal ≠ "left" then
        screen.applyStyle h (.textAlign (TextAlign.ofKeyword horizontal))
      else screen
    if 0 < n then screen.alignText h (labelValign e) n else screen

/-- A control whose color and background may be bound. -/
def withColorBinds (c : Control) (color bgcolor : String) : Control :=
  { c with
    colorBind := if Template.isDynamic color then Control.bound? color else none
    bgcolorBind := if Template.isDynamic bgcolor then Control.bound? bgcolor else none }

def buildLabel (s : Session) (e : Element) (parent : Handle) : Session :=
  let color := e.attr "color"
  let bgcolor := e.attr "bgcolor"
  let (a, s) := s.withId (WidgetAttrs.ofElement e) .label
    (Template.isDynamic e.text || Template.isDynamic color || Template.isDynamic bgcolor)
  let text := s.shown e.text
  let (h, s) := s.create .label parent
  let s := (s.mapScreen (·.setText h text)).applyRules h .label a
  let i : Inline :=
    { color := s.writtenColor color
      bgcolor := s.writtenColor bgcolor
      font := positive? (e.attrInt "font" 0)
      radius := positive? (e.attrInt "radius" 0) }
  let s := (s.mapScreen (·.applyInline h h i)).place h e
  let s := ((s.sizeLabel h e).alignLabel h e).hideForGood h a
  let c := { a.control .label h with template := Control.dynamic? e.text }
  (s.register (withColorBinds c color bgcolor)).2

/-! ## Buttons -/

def iconSize : Int := 24

/-- The label of a button, in its middle. -/
def buttonLabel (s : Session) (button : Handle) (label : ButtonLabel) : Option Handle × Session :=
  if label.text = "" then (none, s)
  else
    let text := s.shown label.text
    let (h, s) := s.create .label button
    let s := s.mapScreen fun screen => (screen.setText h text).align h .center {}
    let s :=
      if label.textAlign ≠ "" then
        let align := TextAlign.ofKeyword (Align.splitPair label.textAlign).1
        s.mapScreen (·.applyStyle h (.textAlign align))
      else s
    (some h, s)

/-- The icon of a button, to the left of a label. -/
def buttonIcon (s : Session) (button : Handle) (e : Element) (hasLabel : Bool) :
    Option Handle × Session :=
  let src := e.attr "icon"
  if src = "" then (none, s)
  else
    let size := e.attrInt "iconsize" iconSize
    let (h, s) := s.create .image button
    let path := s.resourcePath src
    (some h, s.mapScreen fun screen =>
      let screen := (screen.configure h (.imageSource path)).setSize h size size
      screen.align h (if hasLabel then .leftMid else .center) {})

def buildButton (s : Session) (e : Element) (parent : Handle) : Session :=
  let actions : Actions :=
    { href := e.attr "href", onclick := e.attr "onclick", onhold := e.attr "onhold" }
  let label := ButtonLabel.ofElement e
  let color := if e.attr "color" = "" then label.color else e.attr "color"
  let bgcolor := e.attr "bgcolor"
  let isClickable := actions.href ≠ "" || actions.onclick ≠ ""
  let isHoldable := actions.onhold ≠ ""
  let (a, s) := s.withId (WidgetAttrs.ofElement e) .button
    (Template.isDynamic label.text || isClickable || isHoldable || Template.isDynamic color ||
      Template.isDynamic bgcolor)
  let font := if e.attrInt "font" 0 = 0 then label.font else e.attrInt "font" 0
  let (button, s) := s.create .button parent
  let (lbl, s) := s.buttonLabel button label
  let (icon, s) := s.buttonIcon button e lbl.isSome
  let s := s.applyRules button .button a
  let isCentered := e.attr "align" = "center"
  let geometry := s.writtenPlace e
  let i : Inline :=
    { geometry with
      x := if isCentered then none else geometry.x
      color := if lbl.isSome then s.writtenColor color else none
      bgcolor := s.writtenColor bgcolor
      font := if lbl.isSome then positive? font else none
      radius := positive? (e.attrInt "radius" 0) }
  let s := s.mapScreen (·.applyInline button (lbl.getD button) i)
  let y := s.down e "y" 0
  let s := if isCentered then s.mapScreen (·.align button .topMid ⟨0, y⟩) else s
  let s := s.hideForGood button a
  let c :=
    { a.control .button ((lbl.or icon).getD button) with
      outer := some button
      template := if lbl.isSome then Control.dynamic? label.text else none
      actions := actions }
  s.registerWith (withColorBinds c color bgcolor) button
    ((if isClickable then [.clicked] else []) ++ if isHoldable then [.longPressed] else []) .click

/-! ## Rich text -/

/-- A theme with the colors that are written. -/
def themeOf (e : Element) : Theme :=
  let color (name : String) (fallback : Nat) : Nat :=
    if e.attr name = "" then fallback else Color.ofAttribute (e.attr name)
  let t : Theme := {}
  { t with
    color := color "color" t.color
    h1 := color "h1color" t.h1
    h2 := color "h2color" t.h2
    accent := color "accent" t.accent
    code := color "codecolor" t.code }

def buildMarkdown (s : Session) (e : Element) (parent : Handle) : Session :=
  let isDynamic := Template.isDynamic e.text
  let (a, s) := s.withId (WidgetAttrs.ofElement e) .markdown isDynamic
  let text := s.shown e.text
  let theme := themeOf e
  let (h, s) := s.create .spanGroup parent
  let s := s.applyRules h .markdown a
  let geometry := s.writtenPlace e
  let i : Inline :=
    { bgcolor := s.writtenColor (e.attr "bgcolor"), w := geometry.w, h := geometry.h }
  let s := (s.mapScreen (·.applyInline h h i)).place h e
  let s := (s.mapScreen (·.setSpans h (Markdown.render text theme))).hideForGood h a
  let c := a.control .markdown h
  let c := if isDynamic then { c with template := some e.text, theme := some theme } else c
  (s.register c).2

end ScreenMarkup.Session
