import ScreenMarkup.Session.Refresh

/-!
# Reading and writing controls

The outside may change and ask single controls by their ids. Place, size,
visibility, background and stacking belong to the outer widget.
-/

set_option autoImplicit false

namespace ScreenMarkup.Session

/-- Changes the screen through the control with an id, if there is one. -/
def onControl (s : Session) (id : String) (f : Control → Screen → Screen) :
    Except Failure Unit × Session :=
  match s.control? id with
  | some c => (.ok (), s.mapScreen (f c))
  | none => (.error (.unknownWidget id), s)

/-- A widget with children has its text on the first of them. -/
def setText (s : Session) (id text : String) : Except Failure Unit × Session :=
  s.onControl id fun c screen => screen.setText (screen.textWidget c.obj) text

def setSwitch (s : Session) (id : String) (checked : Bool) : Except Failure Unit × Session :=
  s.onControl id fun c screen => screen.setChecked c.obj checked

def setSlider (s : Session) (id : String) (value : Int) : Except Failure Unit × Session :=
  s.onControl id fun c screen => screen.setValue c.obj value

def setInput (s : Session) (id text : String) : Except Failure Unit × Session :=
  s.onControl id fun c screen => screen.setText c.obj text

/-- Calls the function of the first control with an id that has one for clicks. -/
def callOnclick (s : Session) (id : String) : Except Failure Unit × Session :=
  match List.find? (fun c : Control => c.id = id && c.actions.onclick ≠ "") s.controls with
  | some c => (.ok (), s.tell (.call c.actions.onclick))
  | none => (.error (.unknownWidget id), s)

def call (s : Session) (name : String) : Except Failure Unit × Session :=
  if name = "" then (.error (.unknownWidget ""), s) else (.ok (), s.tell (.call name))

/-- The change of the screen that an attribute with a value asks for. -/
def attrChange? (size : Size) (c : Control) (attr value : String) (screen : Screen) :
    Option Screen :=
  let h := c.target
  let r := screen.rect h
  match attr with
  | "bgcolor" => some (screen.setBackground h (Color.ofAttribute value))
  | "color" => some (screen.applyStyle c.obj (.textColor (Color.ofAttribute value)))
  | "text" => some (screen.setText c.obj value)
  | "visible" => some (screen.setHidden h (!readBool value))
  | "x" => some (screen.setPos h (coordinate value size.width) r.y)
  | "y" => some (screen.setPos h r.x (coordinate value size.height))
  | "w" => some (screen.setSize h (coordinate value size.width) r.height)
  | "h" => some (screen.setSize h r.width (coordinate value size.height))
  | "z-index" =>
    let z := Numeric.leadingInt value.toList
    some (if 0 < z then screen.raise h else if z < 0 then screen.moveTo h 0 else screen)
  | _ => none

def setAttr (s : Session) (id attr value : String) : Except Failure Unit × Session :=
  match s.control? id with
  | none => (.error (.unknownWidget id), s)
  | some c =>
    match attrChange? s.config.screen c attr value s.screen with
    | some screen => (.ok (), { s with screen := screen })
    | none => (.error (.unknownAttribute id attr), s)

def attrText? (c : Control) (attr : String) (screen : Screen) : Option String :=
  let h := c.target
  let r := screen.rect h
  match attr with
  | "text" => some (screen.text c.obj)
  | "visible" => some (Value.boolText (!screen.isHidden h))
  | "x" => some (Value.intText r.x)
  | "y" => some (Value.intText r.y)
  | "w" => some (Value.intText r.width)
  | "h" => some (Value.intText r.height)
  | "z-index" => some (Value.intText (screen.index h))
  | _ => none

def getAttr (s : Session) (id attr : String) : Except Failure String :=
  match s.control? id with
  | none => .error (.unknownWidget id)
  | some c =>
    match attrText? c attr s.screen with
    | some t => .ok t
    | none => .error (.unknownAttribute id attr)

/-- The middle of a widget in screen coordinates. -/
def center (s : Session) (id : String) : Except Failure Offset :=
  match s.get? id with
  | none => .error (.unknownWidget id)
  | some h =>
    let r := s.screen.screenRect h
    .ok ⟨r.x + r.width.tdiv 2, r.y + r.height.tdiv 2⟩

/-! ## Canvases -/

/-- Draws on the first canvas with an id. -/
def onCanvas (s : Session) (id : String) (draw : Canvas → Canvas) : Except Failure Unit × Session :=
  match List.findIdx? (fun c : Control => c.id = id && c.canvas.isSome) s.controls with
  | none => (.error (.unknownCanvas id), s)
  | some i =>
    match s.controls[i]? with
    | none => (.error (.unknownCanvas id), s)
    | some c =>
      (.ok (),
        { s with
          controls := s.controls.modify i fun c => { c with canvas := c.canvas.map draw }
          screen := s.screen.invalidate c.obj })

/-- The canvas of the first control with an id. -/
def canvas? (s : Session) (id : String) : Option Canvas := (s.control? id).bind (·.canvas)

end ScreenMarkup.Session
