import ScreenMarkup.Screen.Outline
import ScreenMarkup.Session.Dispatch

/-!
# Gestures

What a user does to the screen: a change of a widget, and the event that
reports it.
-/

set_option autoImplicit false

namespace ScreenMarkup.Session

/-- Reports an event and handles the whole queue. -/
def fire (s : Session) (h : Handle) (kind : EventKind) : Session := (s.post h kind).process.2

/-- Changes the screen at a widget of a control and reports an event of it. -/
def gesture (s : Session) (id : String) (widget : Control → Handle)
    (change : Handle → Screen → Screen) (kind : EventKind) : Except Failure Unit × Session :=
  match s.control? id with
  | none => (.error (.unknownWidget id), s)
  | some c => (.ok (), (s.mapScreen (change (widget c))).fire (widget c) kind)

def click (s : Session) (id : String) : Except Failure Unit × Session :=
  s.gesture id Control.target (fun _ screen => screen) .clicked

def longPress (s : Session) (id : String) : Except Failure Unit × Session :=
  s.gesture id Control.target (fun _ screen => screen) .longPressed

def toggle (s : Session) (id : String) : Except Failure Unit × Session :=
  s.gesture id Control.obj (fun h screen => screen.setChecked h (!screen.isChecked h)) .valueChanged

def slide (s : Session) (id : String) (value : Int) : Except Failure Unit × Session :=
  s.gesture id Control.obj (fun h screen => screen.setValue h value) .valueChanged

def releaseSlider (s : Session) (id : String) : Except Failure Unit × Session :=
  s.gesture id Control.obj (fun _ screen => screen) .released

def typeText (s : Session) (id text : String) : Except Failure Unit × Session :=
  s.gesture id Control.obj (fun h screen => screen.setText h text) .valueChanged

def focus (s : Session) (id : String) : Except Failure Unit × Session :=
  s.gesture id Control.obj (fun h screen => screen.setFocused h true) .focused

def blur (s : Session) (id : String) : Except Failure Unit × Session :=
  s.gesture id Control.obj (fun h screen => screen.setFocused h false) .defocused

/-- Touches a widget with the pointer at a point of the screen. -/
def touchAt (s : Session) (id : String) (p : Offset) (kind : EventKind) :
    Except Failure Unit × Session :=
  s.gesture id Control.obj (fun _ screen => screen.setPointer p) kind

/-- Swipes a group to one of its tiles. -/
def swipe (s : Session) (group : String) (index : Nat) : Except Failure Unit × Session :=
  match s.nav.group? group with
  | none => (.error (.unknownPage group), s)
  | some g =>
    match g.pages[index]? with
    | none => (.error (.unknownGroupPage group (Value.intText index)), s)
    | some tile =>
      (.ok (), (s.mapScreen (·.setActiveTile g.view tile.widget)).fire g.view .valueChanged)

def advance (s : Session) (ms : Nat) : Session := s.mapScreen (·.advance ms)

/-- The text of a control, empty for an unknown one. -/
def textOf (s : Session) (id : String) : String := ((s.get? id).map s.screen.text).getD ""

def isVisible (s : Session) (id : String) : Bool := ((s.get? id).map s.screen.isVisible).getD false

def outline (s : Session) : String := s.screen.outline Handle.screen

end ScreenMarkup.Session
