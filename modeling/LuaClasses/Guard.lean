/-!
This module contains the guard of recursive checks. It knows the checks that are under way, so that
a check that comes back to itself is noticed, and it bounds how deeply checks nest and how many of
them one query may start.
-/

namespace LuaClasses

structure Limits where
  maxDepth : Nat
  maxIterations : Nat
  deriving DecidableEq, Repr

def Limits.standard : Limits :=
  { maxDepth := 100, maxIterations := 100000 }

instance : Inhabited Limits where
  default := .standard

inductive Admission where
  | entered
  /-- The same check is under way. -/
  | cycle
  | depthExceeded
  | iterationExceeded
  deriving DecidableEq, Repr

namespace Admission

def isExceeded : Admission → Bool
  | .depthExceeded => true
  | .iterationExceeded => true
  | _ => false

def name : Admission → String
  | .entered => "Entered"
  | .cycle => "Cycle"
  | .depthExceeded => "DepthExceeded"
  | .iterationExceeded => "IterationExceeded"

end Admission

/--
A guard for checks that are identified by `κ`.
-/
structure Guard (κ : Type) where
  limits : Limits
  /-- The checks under way, the one that started last in front. -/
  active : List κ := []
  depth : Nat := 0
  /-- The number of checks that asked to start since the last time that none was under way. -/
  iterations : Nat := 0
  exceeded : Bool := false
  deriving Repr

namespace Guard

/--
The number of checks that may be under way at once, whatever the limits say.
-/
def maxActive : Nat := 10000

def maxCount : Nat := UInt32.size - 1

def new (limits : Limits) : Guard κ :=
  { limits }

/--
Ask to start a check. The request is counted in any case.
-/
def enter [BEq κ] (g : Guard κ) (key : κ) : Admission × Guard κ :=
  let g := { g with iterations := min (g.iterations + 1) maxCount }
  if g.limits.maxIterations < g.iterations then
    (.iterationExceeded, { g with exceeded := true })
  else if g.limits.maxDepth ≤ g.depth then
    (.depthExceeded, { g with exceeded := true })
  else if g.active.contains key then
    (.cycle, g)
  else if maxActive ≤ g.active.length then
    (.depthExceeded, { g with exceeded := true })
  else
    (.entered, { g with active := key :: g.active, depth := g.depth + 1 })

/--
End a check. The count starts anew when no check is under way.
-/
def leave [BEq κ] (g : Guard κ) (key : κ) : Guard κ :=
  let depth := g.depth - 1
  { g with
    active := g.active.erase key
    depth
    iterations := if depth = 0 then 0 else g.iterations }

def isActive [BEq κ] (g : Guard κ) (key : κ) : Bool :=
  g.active.contains key

/--
How many checks may still be nested inside those under way.
-/
def room (g : Guard κ) : Nat :=
  min g.limits.maxDepth maxActive - g.depth

end Guard

end LuaClasses
