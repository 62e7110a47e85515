import ScreenMarkup.Session.Attribute
import ScreenMarkup.Session.Gesture
import ScreenMarkup.Session.Render

/-!
# Operations

Everything that can be done to a session, one step at a time: by the program
around it, by the user, and by the widgets that report events.
-/

set_option autoImplicit false

namespace ScreenMarkup

/-- What a user does to a widget. -/
inductive Edit where
  | check (checked : Bool)
  | drag (value : Int)
  | type (text : String)
  | focus (focused : Bool)
  | scroll (tile : Handle)
deriving DecidableEq, Inhabited

def Edit.perform (e : Edit) (h : Handle) (s : Screen) : Screen :=
  match e with
  | check checked => s.setChecked h checked
  | drag value => s.setValue h value
  | type text => s.setText h text
  | focus focused => s.setFocused h focused
  | scroll tile => s.setActiveTile h tile

inductive Operation where
  | render (markup : String)
  | clear
  | init
  | setAppDir (path : String)
  /-- The host goes; nothing is told to anyone from now on. -/
  | unhost
  | takeSignals
  | assign (name value : String)
  | assignSilently (name value : String)
  | accept (name value : String)
  | sync
  | write (name : String) (value : Value) (notify : Bool)
  | reset (name : String)
  | resetAll
  | setText (id text : String)
  | setSwitch (id : String) (checked : Bool)
  | setSlider (id : String) (value : Int)
  | setInput (id text : String)
  | setAttr (id attr value : String)
  | draw (id : String) (draw : Canvas → Canvas)
  | callOnclick (id : String)
  | call (name : String)
  | beginInput (id : String)
  | showPage (path : String)
  | navigate (href : String)
  | edit (widget : Handle) (e : Edit)
  | point (p : Offset)
  | advance (ms : Nat)
  | post (widget : Handle) (kind : EventKind)
  /-- One of the listeners of an event handles it. -/
  | handle (widget : Handle) (kind : EventKind) (i : Nat)
  | dispatch (widget : Handle) (kind : EventKind)
  | process

namespace Operation

def perform (o : Operation) (s : Session) : Session :=
  match o with
  | render markup => s.render markup
  | clear => s.clear
  | init => s.init
  | setAppDir path => s.setAppDir path
  | unhost => { s with hosted := false }
  | takeSignals => s.takeSignals.2
  | assign name value => s.assign name value
  | assignSilently name value => s.assignSilently name value
  | accept name value => s.accept name value
  | sync => s.sync
  | write name value notify => s.withStore (s.store.set name value notify).2
  | reset name => s.withStore (s.store.reset name).2
  | resetAll => s.withStore s.store.resetAll
  | setText id text => (s.setText id text).2
  | setSwitch id checked => (s.setSwitch id checked).2
  | setSlider id value => (s.setSlider id value).2
  | setInput id text => (s.setInput id text).2
  | setAttr id attr value => (s.setAttr id attr value).2
  | draw id f => (s.onCanvas id f).2
  | callOnclick id => (s.callOnclick id).2
  | call name => (s.call name).2
  | beginInput id => (s.beginInput id).2
  | showPage path => (s.showPage path).2
  | navigate href => (s.navigate href).2
  | edit widget e => s.mapScreen (e.perform widget)
  | point p => s.mapScreen (·.setPointer p)
  | advance ms => s.advance ms
  | post widget kind => s.post widget kind
  | handle widget kind i =>
    match (s.router.listeners widget kind)[i]? with
    | some l => s.handle widget kind l
    | none => s
  | dispatch widget kind => s.dispatch widget kind
  | process => s.process.2

/-- Everything but a new document and a change of attributes leaves it to the navigation which
page is shown. -/
def keepsPages : Operation → Bool
  | render _ | clear | init | setAttr _ _ _ => false
  | _ => true

end Operation

/-- The session after some operations, in order. -/
def Session.after (s : Session) (os : List Operation) : Session :=
  os.foldl (fun s o => o.perform s) s

end ScreenMarkup
