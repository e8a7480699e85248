import LuaClasses.AlternateName
import LuaClasses.Ancestry

/-!
This module contains the members of a class: those declared under its own name, those declared under
its alternate names, and those of its ancestors.
-/

namespace LuaClasses

inductive Key where
  /-- A number, as it is written. -/
  | number (text : String)
  | string (text : String)
  | other
  deriving DecidableEq, Repr

namespace Context

def membersOfAll (ctx : Context) : List String → Query (List Member)
  | [] => return []
  | name :: rest => do
    let members ← ctx.membersOf name
    let others ← ctx.membersOfAll rest
    return members ++ others

/--
The members of a class itself: those that it carries or that are declared under its name, then those
declared under its alternate names.
-/
def ownMembers (ctx : Context) (c : Class) : Query (List Member) := do
  ctx.settle c
  let own ← match c.origin.fields? with
    | some fields => pure fields
    | none => ctx.membersOf c.name
  let alternate ← ctx.membersOfAll (← ctx.alternateNames c)
  return own ++ alternate

def visitOwnMembers (ctx : Context) (c : Class) (visit : Class → Member → StateT σ Query Unit) :
    StateT σ Query Unit := do
  let members ← ctx.ownMembers c
  members.forM (visit c)

/--
Show the members of a class to a visitor, and, if `deep`, those that each of its ancestors has
itself.
-/
def visitMembers (ctx : Context) (c : Class) (deep : Bool)
    (visit : Class → Member → StateT σ Query Unit) : StateT σ Query Unit := do
  ctx.visitOwnMembers c visit
  if deep then
    let _ ← ctx.walkAncestors c fun a => do
      ctx.visitOwnMembers a visit
      return true

def members (ctx : Context) (c : Class) (deep : Bool) : Query (List (Class × Member)) := do
  return (← (ctx.visitMembers c deep fun a m => modify (· ++ [(a, m)])).run []).2

/--
Whether code inside the class `viewer` may use a member that was found in `owner`. A protected
member may be used by the class that has it and by those that are declared to extend it.
-/
def canUse (ctx : Context) (viewer owner : Class) (m : Member) : Query Bool :=
  match m.visibility with
  | .pub => return true
  | .prot => if owner == viewer then return true else ctx.inheritsFrom viewer.name owner.name
  | .priv => return false

/--
The members of a class and its ancestors that code inside the class `viewer` may use. A name under
which a member may not be used is not seen at all.
-/
def visibleMembers (ctx : Context) (c viewer : Class) : Query (List (Class × Member)) := do
  let sort (owner : Class) (m : Member) :
      StateT (List (Class × Member) × List String) Query Unit := do
    if ← ctx.canUse viewer owner m then
      modify fun (visible, hidden) => (visible ++ [(owner, m)], hidden)
    else
      modify fun (visible, hidden) => (visible, hidden ++ m.name.toList)
  let (_, visible, hidden) ← (ctx.visitMembers c true sort).run ([], [])
  return visible.filter fun (_, m) => !m.name.any hidden.contains

def findMemberIn (ctx : Context) (name : String) : List String → Query (Option Member)
  | [] => return none
  | owner :: rest => do
    match ← ctx.findMember owner name with
    | some m => return some m
    | none => ctx.findMemberIn name rest

def findOwnMember (ctx : Context) (c : Class) (name : String) : Query (Option Member) := do
  ctx.settle c
  let own ← match c.origin.fields? with
    | some fields => pure (fields.find? (·.isNamed name))
    | none => ctx.findMember c.name name
  match own with
  | some m => return some m
  | none => ctx.findMemberIn name (← ctx.alternateNames c)

def findInheritedMember (ctx : Context) (c : Class) (name : String) : Query (Option Member) := do
  let search : Visitor (Option Member) := fun a => do
    match ← get with
    | some _ => return false
    | none =>
      let found ← ctx.findOwnMember a name
      set found
      return found.isNone
  return (← (ctx.walkAncestors c search).run none).2

def findMemberOf (ctx : Context) (c : Class) (name : String) : Query (Option Member) := do
  match ← ctx.findOwnMember c name with
  | some m => return some m
  | none => ctx.findInheritedMember c name

def findEither (ctx : Context) (c : Class) (exact general : String) : Query (Option Member) := do
  match ← ctx.findMemberOf c exact with
  | some m => return some m
  | none => ctx.findMemberOf c general

/--
The member for an access to a class by a key: the one of that key, or else the one for all number or
string keys.
-/
def findKeyMember (ctx : Context) (c : Class) : Key → Query (Option Member)
  | .number text => ctx.findEither c (Identity.numberKey text) Identity.anyNumberKey
  | .string text => ctx.findEither c text Identity.anyStringKey
  | .other => return none

def keyType (ctx : Context) (c : Class) (key : Key) : Query (Option (Ty Class)) := do
  match ← ctx.findKeyMember c key with
  | some m => return some (← ctx.infer m)
  | none => return none

end Context

end LuaClasses
