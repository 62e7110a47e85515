import ScreenMarkup.Control.Basic
import ScreenMarkup.Document.Head
import ScreenMarkup.Navigation.Construction
import ScreenMarkup.Session.Build.Tree

/-!
# Rendering

A document is put on the screen in passes: its head, its groups, its pages,
the widgets inside of them, their stacking, and last the page that is shown
first. Without groups and pages its widgets stand on the screen itself.
-/

set_option autoImplicit false

namespace ScreenMarkup.Session

/-- Elements whose children are built inside a widget. -/
structure Content where
  element : Element
  parent : Handle

def setPageBackground (s : Session) (h : Handle) (page : Element) : Session :=
  let color := page.attr "bgcolor"
  if color = "" then s else s.mapScreen (·.setBackground h (Color.ofAttribute color))

def pushPage (s : Session) (id : String) (h : Handle) : Session :=
  { s with controls := s.controls ++ [{ id := id, kind := .page, obj := h }] }

/-- The pages of a group that get a tile: those with an id, as many as are allowed. -/
def tilePages (group : Element) (limit : Nat) : List Element :=
  ((group.findAll "page").filter fun p => p.attr "id" ≠ "").take limit

def renderTile (gi : Nat) (group : String) (s : Session) (page : Element) :
    Session × List Content :=
  let id := page.attr "id"
  match s.nav.addTile? s.screen gi id s.config.screen with
  | none => (s, [])
  | some (h, nav, screen) =>
    let s := ({ s with nav := nav, screen := screen }).setPageBackground h page
    (s.pushPage (group ++ "/" ++ id) h, [⟨page, h⟩])

/-- Does a step for each element and collects what is to be built. -/
def collect (step : Session → Element → Session × List Content) :
    List Element → Session → Session × List Content
  | [], s => (s, [])
  | e :: es, s =>
    let (s, contents) := step s e
    let (s, more) := collect step es s
    (s, contents ++ more)

/-- A group without an id is left out. -/
def renderGroup (s : Session) (group : Element) : Session × List Content :=
  let id := group.attr "id"
  if id = "" then (s, [])
  else
    let (gi, nav, screen) := s.nav.addGroup s.screen id (group.attr "default")
      (Orientation.ofKeyword (group.attr "orientation"))
      (Indicator.ofKeyword (group.attr "indicator")) s.config.screen
    let s := { s with nav := nav, screen := screen }
    let (s, contents) := collect (renderTile gi id) (tilePages group s.config.maxPagesPerGroup) s
    let (nav, screen) := s.nav.finishGroup s.screen gi
    let s := { s with nav := nav, screen := screen }
    match s.nav.groups[gi]? with
    | none => (s, contents)
    | some g =>
      let s := { s with router := s.router.on g.view .valueChanged (.tileView gi) }
      (s.pushPage id g.view, contents)

/-- A page without an id is left out, and so is one beyond the limit. -/
def renderPage (s : Session) (page : Element) : Session × List Content :=
  let id := page.attr "id"
  if id = "" ∨ s.config.maxPages ≤ s.nav.pages.length then (s, [])
  else
    let (h, nav, screen) := s.nav.addPage s.screen id s.config.screen
    let s := ({ s with nav := nav, screen := screen }).setPageBackground h page
    (s.pushPage id h, [⟨page, h⟩])

/-- The page the document wants, otherwise the first group, otherwise the first page. -/
def showFirst (s : Session) : Session :=
  let first := (s.nav.groups.head?.map (·.id)).or (s.nav.pages.head?.map (·.id))
  let fallback := match first with
    | some id => (s.showPage id).2
    | none => s
  if s.head.defaultPage = "" then fallback
  else
    match s.showPage s.head.defaultPage with
    | (.ok (), s) => s
    | (.error _, _) => fallback

/-- Puts a document on the screen, beside what is there already. -/
def render (s : Session) (markup : String) : Session :=
  let doc := Markup.parse markup
  let app := (doc.find? "app").getD doc
  let (head, store, sheet) := Head.read app s.store {} s.config.iconDir
  let s := { s with head := head, store := store, sheet := sheet }
  let layout := Layout.ofElements doc.children
  let (s, tiles) := collect renderGroup layout.groups s
  let (s, pages) := collect renderPage layout.pages s
  let contents :=
    if s.nav.pages.isEmpty && s.nav.groups.isEmpty then
      [⟨(app.find? "ui").getD app, Handle.screen⟩]
    else tiles ++ pages
  let s := contents.foldl (fun s c => buildAll c.parent c.element.children s) s
  let s := s.mapScreen (·.stack s.controls)
  ({ s with pendingZ := [] }).showFirst

end ScreenMarkup.Session
