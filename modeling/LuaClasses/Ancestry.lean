import LuaClasses.Context
import LuaClasses.Pool

/-!
This module contains the walks over the ancestors of a class. The class graph comes from annotations
and may be cyclic, so a walk visits no name twice: it keeps the pool of the declared names that it
has not visited, and every class it visits leaves the pool.

A walk shows the classes to a visitor, which has a state of its own and says whether to go on.
-/

namespace LuaClasses

/--
A visitor of classes. Its answer is whether the walk goes on.
-/
abbrev Visitor (σ : Type) := Class → StateT σ Query Bool

inductive ClimbEnd where
  /-- There is no further superclass, or an interface was reached. -/
  | top
  /-- The visitor does not go on. -/
  | refused
  /-- The next superclass was visited before. -/
  | repeated
  deriving DecidableEq, Repr

namespace Context

/--
The superclass of a class. A class that is declared to extend itself has none.
-/
def superclass (ctx : Context) (c : Class) : Query (Option Class) := do
  match (← ctx.headerOf c).superName with
  | some name => if name = c.name then return none else ctx.resolve name
  | none => return none

def resolveAll (ctx : Context) : List String → Query (List Class)
  | [] => return []
  | name :: rest => do
    let found ← ctx.resolve name
    let others ← ctx.resolveAll rest
    return found.toList ++ others

/--
The interfaces that a class names and that are declared, the class itself apart.
-/
def interfaces (ctx : Context) (c : Class) : Query (List Class) := do
  ctx.resolveAll ((← ctx.headerOf c).interfaceNames.filter (· != c.name))

def poolFrom (ctx : Context) (start : Class) : Pool :=
  Pool.remove ctx.index.classNames start.name

/--
Visit `next` and its superclasses, as far as their names are in the pool. An interface is the last
class that is visited.
-/
def climb (ctx : Context) (start : Class) (visit : Visitor σ) (pool : Pool) (next : Option Class) :
    StateT σ Query ClimbEnd :=
  match next with
  | none => return .top
  | some c =>
    if _h : c.name ∈ pool then do
      if !(← visit c) then
        return .refused
      else if (← c.header).isInterface then
        return .top
      else
        climb ctx start visit (pool.remove c.name) (← ctx.superclass c)
    else do
      Query.note (.superclassCycle start.name c.name)
      return .repeated
termination_by pool.length
decreasing_by exact Pool.length_remove_lt _h

/--
Visit the pending interfaces and those that they extend, as far as their names are in the pool, each
before the interfaces it extends and those before the next pending one. The result is whether the
visitor went on to the end.
-/
def visitForest (ctx : Context) (visit : Visitor σ) (pool : Pool) (pending : List Class) :
    StateT σ Query Bool :=
  match _h : pool.pendingFrom Class.name pending with
  | [] => return true
  | c :: rest => do
    if ← visit c then
      let extended ← ctx.interfaces c
      visitForest ctx visit (pool.remove c.name) (extended ++ rest)
    else
      return false
termination_by pool.length
decreasing_by exact Pool.length_remove_lt (Pool.mem_of_pendingFrom _h)

def walkInterfaces (ctx : Context) (start : Class) (visit : Visitor σ) : StateT σ Query Bool := do
  let pending ← ctx.interfaces start
  ctx.visitForest visit (ctx.poolFrom start) pending

/--
Visit the superclasses of a class, then its interfaces. A repeated superclass ends the walk as if it
were finished. A visitor that does not go on ends only the part of the walk that it is in.
-/
def walkAncestors (ctx : Context) (start : Class) (visit : Visitor σ) : StateT σ Query Bool := do
  let first ← ctx.superclass start
  match ← ctx.climb start visit (ctx.poolFrom start) first with
  | .top => ctx.walkInterfaces start visit
  | .refused =>
    let _ ← ctx.walkInterfaces start visit
    return false
  | .repeated => return true

def ancestors (ctx : Context) (c : Class) : Query (List Class) := do
  let collect : Visitor (List Class) := fun a => do
    modify (· ++ [a])
    return true
  return (← (ctx.walkAncestors c collect).run []).2

def allInterfaces (ctx : Context) (c : Class) : Query (List Class) := do
  let collect : Visitor (List Class) := fun a => do
    modify (· ++ [a])
    return true
  return (← (ctx.walkInterfaces c collect).run []).2

/--
Whether an ancestor of a class passes a test. Once one has, no other is tested.
-/
def anyAncestor (ctx : Context) (c : Class) (test : Class → Bool) : Query Bool := do
  let search : Visitor Bool := fun a => do
    let found := (← get) || test a
    set found
    return !found
  return (← (ctx.walkAncestors c search).run false).2

def hasAncestor (ctx : Context) (c : Class) (base : String) : Query Bool :=
  ctx.anyAncestor c (·.name == base)

end Context

end LuaClasses
