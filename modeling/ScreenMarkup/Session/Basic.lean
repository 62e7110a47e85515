import ScreenMarkup.Control.Basic
import ScreenMarkup.Document.Head
import ScreenMarkup.Event.Router
import ScreenMarkup.Navigation.Basic

/-!
# Sessions

A session is a screen together with everything that a rendered document put
behind it: variables, rules, controls, listeners and pages. What it has to
tell the outside it writes down in order.
-/

set_option autoImplicit false

namespace ScreenMarkup

structure Config where
  screen : Size := ⟨480, 320⟩
  /-- Relative images are looked for below this directory. -/
  appDir : String := ""
  /-- The least time in milliseconds between two updates of a slider. -/
  sliderThrottle : Nat := 100
  maxPages : Nat := 16
  maxPagesPerGroup : Nat := 4
  maxCanvasBytes : Nat := 4 * 1024 * 1024
  iconDir : String := "/system/resources/icons"
deriving DecidableEq, Inhabited

/-- What a session tells the outside: calls of host functions, and changes of variables. -/
inductive Signal where
  | call (function : String)
  | hold (function : String)
  | tap (function : String) (x y : Int)
  | holdAt (function : String) (x y : Int)
  | stateChanged (name value : String)
  | notified (name value : String)
deriving DecidableEq, Inhabited

structure Session where
  screen : Screen
  config : Config := {}
  store : Store := { listening := true }
  sheet : Stylesheet := {}
  controls : Controls := []
  router : Router := {}
  nav : Navigation := {}
  head : Head := {}
  /-- The z-indices that rules gave to widgets without a control so far. -/
  pendingZ : List (Handle × Int) := []
  /-- The number of the next generated id. -/
  autoId : Nat := 0
  focusedInput : Option Handle := none
  /-- Whether there is a host that takes calls. -/
  hosted : Bool := true
  signals : List Signal := []

namespace Session

def new (config : Config) : Session where
  screen := Screen.new config.screen
  config := config

def mapScreen (s : Session) (f : Screen → Screen) : Session := { s with screen := f s.screen }

/-- Tells the host, if there is one. -/
def tell (s : Session) (signal : Signal) : Session :=
  if s.hosted then { s with signals := s.signals ++ [signal] } else s

/-- Replaces the store, and writes down what it has noticed. -/
def withStore (s : Session) (store : Store) : Session :=
  let (notices, store) := store.takeNotices
  { s with
    store := store
    signals := s.signals ++ notices.map fun n => .notified n.1 n.2.text }

def takeSignals (s : Session) : List Signal × Session := (s.signals, { s with signals := [] })

def control? (s : Session) (id : String) : Option Control := s.controls.find? id

/-- The widget that shows the text or value of a control. -/
def get? (s : Session) (id : String) : Option Handle := (s.control? id).map (·.obj)

def hasPage (s : Session) (id : String) : Bool := ((s.control? id).map (·.isPage)).getD false

/-- Removes all widgets and forgets what the last document built. Variables, metadata, timers
and the script stay. -/
def clear (s : Session) : Session :=
  { s with
    screen := s.screen.clean Handle.screen
    controls := []
    pendingZ := []
    nav := {}
    router := {}
    head := { s.head with defaultPage := "" }
    autoId := 0
    focusedInput := none }

/-- Forgets everything. -/
def init (s : Session) : Session :=
  let s := s.clear
  { s with head := {}, sheet := {}, store := s.store.clear }

def setAppDir (s : Session) (path : String) : Session :=
  { s with config := { s.config with appDir := path } }

/-- A path that starts with `/`, or with one ASCII character and a colon. -/
def isAbsolute (path : String) : Bool :=
  match path.toList with
  | '/' :: _ => true
  | c :: ':' :: _ => c.utf8Size = 1
  | _ => false

/-- An image path: relative ones lie in the resources of the app, if its path is known. -/
def resourcePath (s : Session) (src : String) : String :=
  if src = "" ∨ isAbsolute src = true ∨ s.config.appDir = "" then src
  else s.config.appDir ++ "/resources/" ++ src

/-! ## Navigation -/

def navigated (s : Session) : Except Failure (Navigation × Screen) → Except Failure Unit × Session
  | .ok (nav, screen) => (.ok (), { s with nav := nav, screen := screen })
  | .error e => (.error e, s)

def showPage (s : Session) (path : String) : Except Failure Unit × Session :=
  s.navigated (s.nav.display s.screen path)

/-- Follows a link: to the next or the previous page, or to the page it names. -/
def navigate (s : Session) (href : String) : Except Failure Unit × Session :=
  match href.toList with
  | '/' :: t =>
    let target := String.ofList t
    if target = "next" then s.navigated (s.nav.step s.screen 1)
    else if target = "prev" ∨ target = "back" then s.navigated (s.nav.step s.screen (-1))
    else s.navigated (s.nav.display s.screen target)
  | _ => (.error (.invalidHref href), s)

end Session
end ScreenMarkup
