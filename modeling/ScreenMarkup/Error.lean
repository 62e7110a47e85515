import ScreenMarkup.State.Value

/-!
# Failures

No operation is fatal. What fails is the search for something by its name, or
the making of one canvas.
-/

set_option autoImplicit false

namespace ScreenMarkup

inductive Failure where
  | unknownWidget (id : String)
  | unknownCanvas (id : String)
  | unknownPage (name : String)
  | unknownGroupPage (group page : String)
  | unknownAttribute (id attr : String)
  | invalidHref (href : String)
  | canvasAllocation (bytes : Nat)
deriving DecidableEq, Inhabited

namespace Failure

def quoted (s : String) : String := "`" ++ s ++ "`"

def message : Failure → String
  | unknownWidget id => "no widget with id " ++ quoted id
  | unknownCanvas id => "no canvas with id " ++ quoted id
  | unknownPage name => "no page or group named " ++ quoted name
  | unknownGroupPage group page => "group " ++ quoted group ++ " has no page " ++ quoted page
  | unknownAttribute id attr =>
    "unsupported attribute " ++ quoted attr ++ " for widget " ++ quoted id
  | invalidHref href => "invalid navigation target " ++ quoted href
  | canvasAllocation bytes =>
    "canvas buffer of " ++ Value.intText bytes ++ " bytes could not be allocated"

end Failure
end ScreenMarkup
