import ScreenMarkup.Session.Build.Inline

/-!
# Registering widgets

Every widget is built in the same order: its attributes are read, it is made
with its own looks, the rules are applied, then the inline attributes, and
last it is registered, which makes it a control with an id and listeners.
-/

set_option autoImplicit false

namespace ScreenMarkup.Session

def create (s : Session) (kind : WidgetKind) (parent : Handle) : Handle × Session :=
  let (h, screen) := s.screen.create kind parent
  (h, { s with screen := screen })

/-- Generates an id for an element without one, when something needs it. -/
def withId (s : Session) (a : WidgetAttrs) (kind : ControlKind) (needed : Bool) :
    WidgetAttrs × Session :=
  if a.id = "" && (needed || a.hasBoundClasses || a.hasBoundVisibility) then
    ({ a with id := kind.idStem ++ Value.intText s.autoId }, { s with autoId := s.autoId + 1 })
  else (a, s)

/-- Keeps the z-index that a rule gives to a widget, in its control or until it has one. -/
def keepZIndex (s : Session) (h : Handle) (z : Int) : Session :=
  match s.controls.widgetIndex? h with
  | some i => { s with controls := s.controls.modify i ({ · with zIndex := z }) }
  | none => { s with pendingZ := (h, z) :: s.pendingZ.filter (·.1 ≠ h) }

/-- Applies the rules that select an element. -/
def applyRules (s : Session) (h : Handle) (kind : ControlKind) (a : WidgetAttrs) : Session :=
  let classes := if a.hasBoundClasses then s.shown a.classes else a.classes
  let (z, screen) := s.screen.applyRules h s.sheet kind.tag a.id classes s.config.screen
  let s := { s with screen := screen }
  match z with
  | some z => s.keepZIndex h z
  | none => s

def hideForGood (s : Session) (h : Handle) (a : WidgetAttrs) : Session :=
  if a.isHiddenForGood then s.mapScreen (·.setHidden h true) else s

/-- Takes the z-index kept for a widget. -/
def claim (s : Session) (h : Handle) : Option Int × Session :=
  match s.pendingZ.lookup h with
  | some z => (some z, { s with pendingZ := s.pendingZ.filter (·.1 ≠ h) })
  | none => (none, s)

def claimFor (s : Session) (c : Control) : Option Int × Session :=
  match s.claim c.obj, c.outer with
  | (some z, s), _ => (some z, s)
  | (none, s), some outer => s.claim outer
  | (none, s), none => (none, s)

/-- Records a control that has an id, and gives its position. A false visibility hides it, and a
z-index kept for it replaces its own. -/
def register (s : Session) (c : Control) : Option Nat × Session :=
  if c.id = "" then (none, s)
  else
    let s := match c.visibleBind with
      | some v => if readBool (s.store.text v) then s else s.mapScreen (·.setHidden c.target true)
      | none => s
    let (z, s) := s.claimFor c
    (some s.controls.length,
      { s with controls := s.controls ++ [{ c with zIndex := z.getD c.zIndex }] })

/-- Records a control and lets a listener wait for its events. -/
def registerWith (s : Session) (c : Control) (h : Handle) (kinds : List EventKind)
    (listener : Nat → Listener) : Session :=
  match s.register c with
  | (some i, s) => { s with router := s.router.onAll h kinds (listener i) }
  | (none, s) => s

end ScreenMarkup.Session
