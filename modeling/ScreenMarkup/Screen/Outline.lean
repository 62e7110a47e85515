import ScreenMarkup.Screen.Basic
import ScreenMarkup.State.Value
import ScreenMarkup.Text.Printable

/-!
# Outlines

The outline of a widget shows it and everything below it, one line each:
kind, place, text and whether it is hidden, indented by depth.
-/

set_option autoImplicit false

namespace ScreenMarkup.Screen

def outlineLine (depth : Nat) (w : Widget) : String :=
  let n := Value.intText
  String.join (List.replicate depth "  ") ++ w.kind.name ++ " " ++
    n w.rect.x ++ "," ++ n w.rect.y ++ " " ++ n w.rect.width ++ "x" ++ n w.rect.height ++
    (if w.text = "" then "" else " " ++ Text.quote w.text) ++
    (if w.hidden then " hidden" else "") ++ "\n"

def outline (s : Screen) (h : Handle) : String :=
  match s.branch? h with
  | none => ""
  | some b =>
    String.join ((b.depths 0).filterMap fun e => (s.widget? e.2).map (outlineLine e.1))

end ScreenMarkup.Screen
