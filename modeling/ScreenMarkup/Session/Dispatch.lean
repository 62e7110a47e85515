import ScreenMarkup.Session.Refresh

/-!
# Handling events

An event of a widget goes to the listeners of that widget, in the order of
their registration. They follow links, call the host, and write variables.
-/

set_option autoImplicit false

namespace ScreenMarkup.Session

/-- Calls a host function that has a name. -/
def tellIf (s : Session) (function : String) (signal : String → Signal) : Session :=
  if function = "" then s else s.tell (signal function)

def onClick (s : Session) (c : Control) (kind : EventKind) : Session :=
  match kind with
  | .longPressed => s.tellIf c.actions.onhold .hold
  | .clicked =>
    let s := s.tellIf c.actions.onclick .call
    if c.actions.href = "" then s else (s.navigate c.actions.href).2
  | _ => s

/-- Writes the variable of a control, and then tells the host. -/
def report (s : Session) (c : Control) (value : String) : Session :=
  match c.bind with
  | some v => (s.accept v value).tell (.stateChanged v value)
  | none => s

def onSwitch (s : Session) (c : Control) : Session :=
  (s.report c (Value.boolText (s.screen.isChecked c.obj))).tellIf c.actions.onchange .call

/-- Between two updates of a dragged slider there is a least time. -/
def isThrottled (s : Session) (c : Control) : Bool :=
  match c.lastUpdate with
  | some last => s.screen.clock - last < s.config.sliderThrottle
  | none => false

def onSlider (s : Session) (i : Nat) (c : Control) (kind : EventKind) : Session :=
  let value := Value.intText (s.screen.value c.obj)
  match kind with
  | .valueChanged =>
    if s.isThrottled c then s
    else
      let now := s.screen.clock
      let s := { s with controls := s.controls.modify i ({ · with lastUpdate := some now }) }
      match c.bind with
      | some v => s.accept v value
      | none => s
  | .released => (s.report c value).tellIf c.actions.onchange .call
  | _ => s

/-! ## Keyboards -/

/-- Shows the keyboard of the page around a text area, and tells whether there is a page. -/
def showKeyboard (s : Session) (input : Handle) : Bool × Session :=
  match s.nav.pageAround? s.screen input with
  | none => (false, s)
  | some page =>
    let ((k, isNew), nav, screen) := s.nav.keyboard s.screen page
    let router := if isNew then s.router.onAll k [.ready, .cancel] .keyboard else s.router
    let screen := (screen.configure k (.keyboardTarget (some input))).setHidden k false
    (true, { s with nav := nav, screen := screen, router := router, focusedInput := some input })

def hideKeyboard (s : Session) (input : Handle) : Session :=
  match (s.nav.pageAround? s.screen input).bind s.nav.keyboard? with
  | some k => s.mapScreen (·.setHidden k true)
  | none => s

/-- Focuses a text area and shows its keyboard. -/
def beginInput (s : Session) (id : String) : Except Failure Unit × Session :=
  match s.get? id with
  | none => (.error (.unknownWidget id), s)
  | some h =>
    if s.screen.kind? h ≠ some .textArea then (.error (.unknownWidget id), s)
    else
      match s.showKeyboard h with
      | (true, s) => (.ok (), s.mapScreen (·.setFocused h true))
      | (false, s) => (.error (.unknownPage id), s)

def onInput (s : Session) (c : Control) (kind : EventKind) : Session :=
  match kind with
  | .valueChanged =>
    match c.bind with
    | some v => s.accept v (s.screen.text c.obj)
    | none => s
  | .focused => (s.showKeyboard c.obj).2
  | .defocused =>
    let s := s.hideKeyboard c.obj
    let s := match c.bind with
      | some v => s.tell (.stateChanged v (s.screen.text c.obj))
      | none => s
    s.tellIf c.actions.onchange .call
  | _ => s

/-- The keyboard is closed, and what it typed into loses the focus. -/
def onKeyboard (s : Session) (keyboard : Handle) (kind : EventKind) : Session :=
  if kind = .ready ∨ kind = .cancel then
    let s := s.mapScreen (·.setHidden keyboard true)
    match s.focusedInput with
    | some input => { s.mapScreen (·.setFocused input false) with focusedInput := none }
    | none => s
  else s

/-! ## Canvases -/

/-- A press forgets the point that was touched last. -/
def forgetTouch (s : Session) : Session :=
  (s.assignSilently "lastX" "-1").assignSilently "lastY" "-1"

/-- What a touch at a point of a canvas does. -/
def touch (s : Session) (c : Control) (kind : EventKind) (x y : Int) : Session :=
  match kind with
  | .clicked => s.tellIf c.actions.ontap (.tap · x y)
  | .longPressed => s.tellIf c.actions.onhold (.holdAt · x y)
  | .pressed | .pressing =>
    if c.actions.ondraw = "" then s
    else
      let s := (s.assignSilently "_touchX" (Value.intText x)).assignSilently "_touchY"
        (Value.intText y)
      s.tell (.call c.actions.ondraw)
  | _ => s

def onCanvasTouch (s : Session) (control : Option Control) (kind : EventKind) : Session :=
  let s := if kind = .pressed then s.forgetTouch else s
  match control with
  | none => s
  | some c =>
    match c.canvas with
    | none => s
    | some canvas =>
      let r := s.screen.screenRect c.obj
      let x := s.screen.pointer.x - r.x
      let y := s.screen.pointer.y - r.y
      if canvas.contains x y then s.touch c kind x y else s

/-! ## Dispatch -/

def handle (s : Session) (h : Handle) (kind : EventKind) (listener : Listener) : Session :=
  let withControl (i : Nat) (f : Control → Session) : Session :=
    match s.controls[i]? with
    | some c => f c
    | none => s
  match listener with
  | .click i => withControl i fun c => s.onClick c kind
  | .switch i => withControl i fun c => s.onSwitch c
  | .slider i => withControl i fun c => s.onSlider i c kind
  | .input i => withControl i fun c => s.onInput c kind
  | .canvas i => s.onCanvasTouch s.controls[i]? kind
  | .keyboard => s.onKeyboard h kind
  | .tileView g =>
    let (nav, screen) := s.nav.swiped s.screen g
    { s with nav := nav, screen := screen }

def dispatch (s : Session) (h : Handle) (kind : EventKind) : Session :=
  (s.router.listeners h kind).foldl (fun s l => s.handle h kind l) s

/-- Puts an event into the queue. -/
def post (s : Session) (h : Handle) (kind : EventKind) : Session :=
  { s with router := s.router.push h kind }

/-- Handles the events of the queue in order, and gives their number. -/
def process (s : Session) : Nat × Session :=
  let (events, router) := s.router.drain
  (events.length,
    events.foldl (fun s e => s.dispatch e.1 e.2) { s with router := router })

end ScreenMarkup.Session
