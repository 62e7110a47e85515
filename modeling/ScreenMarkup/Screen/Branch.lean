/-!
# Handles and branches

A handle names one widget for ever. It is a place in memory together with the
number of widgets that have lived there, so a place can be used again without
old handles coming back to life.

Branches are the shape of the widget tree, apart from what its widgets are: a
branch is a handle with an ordered list of branches below it. Siblings are
drawn in order, the last on top.
-/

set_option autoImplicit false

namespace ScreenMarkup

structure Handle where
  slot : Nat
  generation : Nat
deriving DecidableEq, Inhabited

namespace Handle

def screen : Handle := ⟨0, 1⟩

/-- Generations count from one, so this handle never names a widget. -/
def nowhere : Handle := ⟨0, 0⟩

end Handle
end ScreenMarkup

namespace ScreenMarkup

inductive Branch where
  | node (handle : Handle) (children : List Branch)
deriving Inhabited

namespace Branch

def handle : Branch → Handle
  | node h _ => h

def children : Branch → List Branch
  | node _ bs => bs

def leaf (h : Handle) : Branch := node h []

mutual
/-- The handles of a branch in document order, its own first. -/
def handles : Branch → List Handle
  | node h bs => h :: handlesAll bs
def handlesAll : List Branch → List Handle
  | [] => []
  | b :: bs => handles b ++ handlesAll bs
end

mutual
/-- The handles with their depths in document order. -/
def depths (depth : Nat) : Branch → List (Nat × Handle)
  | node h bs => (depth, h) :: depthsAll (depth + 1) bs
def depthsAll (depth : Nat) : List Branch → List (Nat × Handle)
  | [] => []
  | b :: bs => depths depth b ++ depthsAll depth bs
end

mutual
/-- The branch that starts at a handle. -/
def find? (h : Handle) : Branch → Option Branch
  | node k bs => if k = h then some (node k bs) else findAmong? h bs
def findAmong? (h : Handle) : List Branch → Option Branch
  | [] => none
  | b :: bs => (find? h b).or (findAmong? h bs)
end

mutual
/-- The handles above a handle, the nearest first. -/
def above? (h : Handle) : Branch → Option (List Handle)
  | node k bs => if k = h then some [] else (aboveAmong? h bs).map (· ++ [k])
def aboveAmong? (h : Handle) : List Branch → Option (List Handle)
  | [] => none
  | b :: bs => (above? h b).or (aboveAmong? h bs)
end

mutual
/-- Changes the list of branches below a handle. -/
def modify (h : Handle) (f : List Branch → List Branch) : Branch → Branch
  | node k bs => node k (if k = h then f (modifyAll h f bs) else modifyAll h f bs)
def modifyAll (h : Handle) (f : List Branch → List Branch) : List Branch → List Branch
  | [] => []
  | b :: bs => modify h f b :: modifyAll h f bs
end

mutual
/-- Removes what starts at a handle; the root stays. -/
def remove (h : Handle) : Branch → Branch
  | node k bs => node k (removeAll h bs)
def removeAll (h : Handle) : List Branch → List Branch
  | [] => []
  | b :: bs => if b.handle = h then removeAll h bs else remove h b :: removeAll h bs
end

/-- The handles below a branch level by level. -/
def levels (b : Branch) : List Handle :=
  ((depths 0 b).mergeSort fun a c => a.1 ≤ c.1).map (·.2)

/-- Moves a branch to a position among its siblings, or to the last one. -/
def relocate (h : Handle) (position : Nat) (bs : List Branch) : List Branch :=
  let others := bs.filter fun b => b.handle ≠ h
  let moved := bs.filter fun b => b.handle = h
  others.take position ++ moved ++ others.drop position

end Branch
end ScreenMarkup
