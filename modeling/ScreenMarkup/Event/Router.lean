import ScreenMarkup.Screen.Branch

/-!
# Events and listeners

Widgets report events. A router knows which listeners wait for which events
of which widgets, and keeps reported events in a queue until they are handled.
-/

set_option autoImplicit false

namespace ScreenMarkup

inductive EventKind where
  | clicked | longPressed | valueChanged | pressed | pressing | released
  | focused | defocused | ready | cancel
deriving DecidableEq, Inhabited

namespace EventKind

def name : EventKind → String
  | clicked => "clicked"
  | longPressed => "long-pressed"
  | valueChanged => "value-changed"
  | pressed => "pressed"
  | pressing => "pressing"
  | released => "released"
  | focused => "focused"
  | defocused => "defocused"
  | ready => "ready"
  | cancel => "cancel"

def all : List EventKind :=
  [clicked, longPressed, valueChanged, pressed, pressing, released, focused, defocused, ready,
   cancel]

end EventKind

/-- What handles an event: a control, by its position, the keyboard, or a group of pages. -/
inductive Listener where
  | click (control : Nat)
  | switch (control : Nat)
  | slider (control : Nat)
  | input (control : Nat)
  | canvas (control : Nat)
  | keyboard
  | tileView (group : Nat)
deriving DecidableEq, Inhabited

/-- The listeners of one widget in the order of their registration. -/
structure Subscription where
  widget : Handle
  listeners : List (EventKind × Listener)
deriving DecidableEq, Inhabited

structure Router where
  subscriptions : List Subscription := []
  queue : List (Handle × EventKind) := []
deriving DecidableEq, Inhabited

namespace Router

/-- A place holds the listeners of the latest widget that registered there; one from before it
is refused. -/
def subscribe (h : Handle) (entry : EventKind × Listener) : List Subscription → List Subscription
  | [] => [⟨h, [entry]⟩]
  | s :: ss =>
    if s.widget.slot = h.slot then
      if s.widget.generation = h.generation then
        { s with listeners := s.listeners ++ [entry] } :: ss
      else if s.widget.generation < h.generation then ⟨h, [entry]⟩ :: ss
      else s :: ss
    else s :: subscribe h entry ss

def on (r : Router) (h : Handle) (kind : EventKind) (listener : Listener) : Router :=
  if h.generation = 0 then r
  else { r with subscriptions := subscribe h (kind, listener) r.subscriptions }

def onAll (r : Router) (h : Handle) (kinds : List EventKind) (listener : Listener) : Router :=
  kinds.foldl (fun r kind => r.on h kind listener) r

def all (r : Router) (h : Handle) : List (EventKind × Listener) :=
  ((r.subscriptions.find? fun s => s.widget = h).map (·.listeners)).getD []

def listeners (r : Router) (h : Handle) (kind : EventKind) : List Listener :=
  ((r.all h).filter fun e => e.1 = kind).map (·.2)

def hasListener (r : Router) (h : Handle) (kind : EventKind) : Bool :=
  (r.all h).any fun e => e.1 = kind

def push (r : Router) (h : Handle) (kind : EventKind) : Router :=
  { r with queue := r.queue ++ [(h, kind)] }

def drain (r : Router) : List (Handle × EventKind) × Router := (r.queue, { r with queue := [] })

end Router
end ScreenMarkup
