import ScreenMarkup.Markup.Document
import ScreenMarkup.Markup.Element
import ScreenMarkup.State.Store
import ScreenMarkup.Style.Rule
import ScreenMarkup.Text.Lowercase

/-!
# The head and the layout of a document

Beside its pages a document declares its metadata, state variables, styles,
timers, a script, and hints for the device. State goes into the store and
styles into the stylesheet; the rest is kept as data. Groups and pages may
stand anywhere in a document, but not inside each other.
-/

set_option autoImplicit false

namespace ScreenMarkup

inductive DisplayBuffer where
  | micro | small | optimal | max
deriving DecidableEq, Inhabited

def DisplayBuffer.ofKeyword (s : String) : DisplayBuffer :=
  if s = "micro" ∨ s = "min" then micro
  else if s = "small" then small
  else if s = "max" then max
  else optimal

structure Timer where
  interval : Int
  call : String
deriving DecidableEq, Inhabited

structure Head where
  version : String := "0.0"
  os : String := ""
  readonly : Bool := false
  icon : String := ""
  buffer : Option DisplayBuffer := none
  network : Option String := none
  timers : List Timer := []
  language : String := "lua"
  code : String := ""
  defaultPage : String := ""
deriving DecidableEq, Inhabited

namespace Head
open Text

/-- An icon `system:name` is a file of the icon directory. -/
def iconPath (icon directory : String) : String :=
  match after? "system:".toList icon.toList with
  | some name =>
    let dir := (directory.toList.reverse.dropWhile (· = '/')).reverse
    String.ofList (dir ++ '/' :: name ++ ".png".toList)
  | none => icon

/-- Declares the variables of a state section: children with a known type and a name. -/
def declareState (e : Element) (store : Store) : Store :=
  e.children.foldl (fun store v =>
    let name := v.attr "name"
    if name = "" ∨ !VarType.isKnown v.tag then store
    else store.defineText name (VarType.ofName v.tag) (v.attr "default")) store

def timer? (e : Element) : Option Timer :=
  let interval := e.attrInt "interval" 0
  let call := e.attr "call"
  if 0 < interval ∧ call ≠ "" then some ⟨interval, call⟩ else none

def withMeta (h : Head) (app : Element) (iconDir : String) : Head :=
  if app.tag = "app" then
    { h with
      version := (app.given? "version").getD h.version
      os := app.attr "os"
      readonly := app.attr "readonly" = "true" || app.attr "readonly" = "1"
      icon := iconPath (app.attr "icon") iconDir }
  else h

def withScript (h : Head) (app : Element) : Head :=
  match app.find? "script" with
  | some e =>
    { h with
      language := lowercase (e.attrD "language" "lua")
      code := String.ofList (trimStart e.text.toList) }
  | none => h

def withConfig (h : Head) (app : Element) : Head :=
  match app.find? "config" with
  | some e =>
    { h with
      buffer := (e.find? "display").map fun d => DisplayBuffer.ofKeyword (d.attr "buffer")
      network := (e.find? "network").map (·.attr "mode") }
  | none => h

def withDefaultPage (h : Head) (app : Element) : Head :=
  match app.find? "ui" with
  | some e => { h with defaultPage := dropSlash (e.attr "default") }
  | none => h

/-- What the head of `app` declares, in the order head, store, stylesheet. -/
def read (app : Element) (store : Store) (sheet : Stylesheet) (iconDir : String) :
    Head × Store × Stylesheet :=
  let head : Head := withMeta {} app iconDir
  let head := { head with timers := (app.findAll "timer").filterMap timer? }
  let head := withDefaultPage (withConfig (withScript head app) app) app
  let store := match app.find? "state" with
    | some e => declareState e store
    | none => store
  let sheet := match app.find? "style" with
    | some e => sheet.add e.text
    | none => sheet
  (head, store, sheet)

end Head

structure Layout where
  groups : List Element := []
  pages : List Element := []
deriving Inhabited

namespace Layout

def append (a b : Layout) : Layout := ⟨a.groups ++ b.groups, a.pages ++ b.pages⟩

mutual
def ofElement : Element → Layout
  | ⟨tag, attrs, text, children, inner⟩ =>
    if tag = "group" then { groups := [⟨tag, attrs, text, children, inner⟩] }
    else if tag = "page" then { pages := [⟨tag, attrs, text, children, inner⟩] }
    else ofElements children
/-- The groups and the pages among some elements, in document order. -/
def ofElements : List Element → Layout
  | [] => {}
  | e :: es => (ofElement e).append (ofElements es)
end

end Layout
end ScreenMarkup
