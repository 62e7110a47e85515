import ScreenMarkup.Screen.Cascade
import ScreenMarkup.Session.Basic

/-!
# Bindings

When a variable gets a value, every control that depends on it is brought up
to date: its text, its classes, the value it is bound to, whether it is visible,
and its colors.
-/

set_option autoImplicit false

namespace ScreenMarkup

/-- The widget that holds the text of a widget: its first child, if it has one. -/
def Screen.textWidget (s : Screen) (h : Handle) : Handle := (s.child? h 0).getD h

/-- What a refresh reads: the variables, the rules, the size of the screen, and the variable
that got a value. -/
structure Refresh where
  store : Store
  sheet : Stylesheet
  size : Size
  name : String
  value : String

namespace Refresh

/-- A template that mentions the variable. -/
def affected? (r : Refresh) (template : Option String) : Option String :=
  template.filter (Template.mentions · r.name)

def text (r : Refresh) (c : Control) (s : Screen) : Screen :=
  match r.affected? c.template with
  | none => s
  | some t =>
    let text := Template.render t r.store
    match c.theme with
    | some theme => s.setSpans c.obj (Markdown.render text theme)
    | none => s.setText (s.textWidget c.obj) text

/-- New classes style a widget from scratch; its place stays. -/
def classes (r : Refresh) (c : Control) (s : Screen) : Screen :=
  match r.affected? c.classTemplate with
  | none => s
  | some t =>
    let classes := Template.render t r.store
    let h := c.target
    let rect := s.rect h
    let s := ((s.clearStyle h).applyRules h r.sheet c.kind.tag c.id classes r.size).2
    let s := (s.setPos h rect.x rect.y).setSize h rect.width rect.height
    match c.outer, r.sheet.resolve? c.kind.tag c.id classes "color" with
    | some _, some color => s.applyStyle c.obj (.textColor (Color.ofStylesheet color))
    | _, _ => s

def bound (r : Refresh) (c : Control) (s : Screen) : Screen :=
  if c.bind = some r.name then
    match c.kind with
    | .switch => s.setChecked c.obj (readBool r.value)
    | .slider =>
      let v := Numeric.leadingInt r.value.toList
      if s.value c.obj = v then s else s.setValue c.obj v
    | .input => s.setText c.obj r.value
    | _ => s
  else s

def visibility (r : Refresh) (c : Control) (s : Screen) : Screen :=
  if c.visibleBind = some r.name then s.setHidden c.target (!readBool r.value) else s

def colors (r : Refresh) (c : Control) (s : Screen) : Screen :=
  let s :=
    if c.bgcolorBind = some r.name then s.setBackground c.target (Color.ofAttribute r.value) else s
  if c.colorBind = some r.name then
    s.applyStyle c.obj (.textColor (Color.ofAttribute r.value))
  else s

def control (r : Refresh) (s : Screen) (c : Control) : Screen :=
  r.colors c (r.visibility c (r.bound c (r.classes c (r.text c s))))

end Refresh

namespace Session

/-- Brings every control up to date that depends on a variable. -/
def refresh (s : Session) (name value : String) : Session :=
  let r : Refresh := ⟨s.store, s.sheet, s.config.screen, name, value⟩
  s.mapScreen fun screen => s.controls.foldl r.control screen

/-- Writes a variable without notice and refreshes, whether it changed or not. -/
def accept (s : Session) (name value : String) : Session :=
  (s.withStore (s.store.setText name value false).2).refresh name value

/-- Writes a variable, and refreshes when it changed. -/
def assign (s : Session) (name value : String) : Session :=
  let (changed, store) := s.store.setText name value true
  let s := s.withStore store
  if changed then s.refresh name (s.store.text name) else s

def assignSilently (s : Session) (name value : String) : Session :=
  s.withStore (s.store.setText name value false).2

/-- Gives every bound switch, slider and input the value of its variable. -/
def syncControl (store : Store) (screen : Screen) (c : Control) : Screen :=
  match c.bind, c.kind with
  | some v, .switch => screen.setChecked c.obj (store.bool v)
  | some v, .slider => screen.setValue c.obj (store.int v)
  | some v, .input => screen.setText c.obj (store.text v)
  | _, _ => screen

def sync (s : Session) : Session :=
  s.mapScreen fun screen => s.controls.foldl (syncControl s.store) screen

end Session
end ScreenMarkup
