import LuaClasses.Membership

/-!
This module contains the subtype check. Classes are related by their declared ancestry, and they are
related to an interface by having all its members at compatible types, whether or not they name it.

Such a structural comparison leads to the types of members, and these may lead back to it. A
comparison that is under way counts as one that succeeds.
-/

namespace LuaClasses

namespace Ty

variable {m : Type → Type} [Monad m]

mutual

/--
Whether a type that is neither built in nor a union is accepted by `target`: it is the same type, or
the target accepts every type, or it is a union with a member that accepts it. Any other target is
left to `accepts`.
-/
def acceptedBy (source : Ty Class) (accepts : Ty Class → m Bool) (target : Ty Class) : m Bool :=
  if source == target then return true
  else match target with
    | .any => return true
    | .unknown => return true
    | .union members => acceptedByAny source accepts members
    | target => accepts target

def acceptedByAny (source : Ty Class) (accepts : Ty Class → m Bool) : List (Ty Class) → m Bool
  | [] => return false
  | target :: rest => do
    if ← acceptedBy source accepts target then
      return true
    else
      acceptedByAny source accepts rest

end

def isTop : Ty κ → Bool
  | .any => true
  | .unknown => true
  | _ => false

mutual

/--
Whether `source` can be used where `target` is expected, given the same question for classes. If the
check is not strict, the types any, unknown and nil can be used everywhere.
-/
def check (classCheck : Class → Ty Class → m Bool) (strict : Bool) : Ty Class → Ty Class → m Bool
  | .any, target => return target == .any || target.isTop || !strict
  | .unknown, target => return target == .unknown || target.isTop || !strict
  | .nil, target => return target == .nil || target.isTop || !strict
  | .union members, target =>
    if .union members == target || target.isTop then return true
    else checkAll classCheck strict members target
  | .cls c, target => acceptedBy (.cls c) (classCheck c) target
  | .array element, target =>
    acceptedBy (.array element) (fun
      | .primitive .table => return true
      | .array element' => check classCheck strict element element'
      | _ => return false) target
  | .generic base params, target =>
    acceptedBy (.generic base params) (fun
      | .generic base' params' =>
        if base == base' && params.length == params'.length then
          checkEach classCheck strict params params'
        else return false
      | target => check classCheck strict base target) target
  | .primitive p, target =>
    acceptedBy (.primitive p) (fun
      | .primitive q => return p == q
      | _ => return false) target

def checkAll (classCheck : Class → Ty Class → m Bool) (strict : Bool) :
    List (Ty Class) → Ty Class → m Bool
  | [], _ => return true
  | source :: rest, target => do
    if ← check classCheck strict source target then
      checkAll classCheck strict rest target
    else
      return false

def checkEach (classCheck : Class → Ty Class → m Bool) (strict : Bool) :
    List (Ty Class) → List (Ty Class) → m Bool
  | source :: rest, target :: targets => do
    if ← check classCheck strict source target then
      checkEach classCheck strict rest targets
    else
      return false
  | _, _ => return true

end

end Ty

/--
What the check of classes is made of: facts about classes, the guard of structural comparisons, and
the record of events.
-/
structure Checker (m : Type → Type) where
  settle : Class → m Unit
  /-- Whether the second class is an ancestor of the first. -/
  hasAncestor : Class → Class → m Bool
  isInterface : Class → m Bool
  ownMembers : Class → m (List Member)
  findMember : Class → String → m (Option Member)
  infer : Member → m (Ty Class)
  enter : String × String → m Admission
  leave : String × String → m Unit
  /-- A bound on the nesting of comparisons that the guard leaves room for. -/
  bound : m Nat
  /-- The answer where comparisons nest as deeply as the bound says. -/
  beyond : m Bool
  note : Event → m Unit

namespace Checker

variable {m : Type → Type} [Monad m] (k : Checker m)

def isRelated (conforms : Class → Class → m Bool) (c target : Class) : m Bool := do
  if ← k.hasAncestor c target then
    return true
  else if ← k.isInterface target then
    conforms c target
  else
    return false

mutual

/--
Whether a class can be used where `target` is expected, given what it is to conform to an interface.
Every class is a table, and a table without fields is an array of any kind.
-/
def checkClass (conforms : Class → Class → m Bool) (c : Class) : Ty Class → m Bool
  | .any => return true
  | .unknown => return true
  | .cls target => do
    if target == c then
      return true
    else
      k.settle c
      k.isRelated conforms c target
  | .union members => do
    if ← checkClassAny conforms c members then
      return true
    else
      k.settle c
      return false
  | target => do
    if target.isTable then
      return true
    else
      k.settle c
      return target.isArray && c.isEmptyTable

def checkClassAny (conforms : Class → Class → m Bool) (c : Class) : List (Ty Class) → m Bool
  | [] => return false
  | target :: rest => do
    if ← checkClass conforms c target then
      return true
    else
      checkClassAny conforms c rest

end

def hasMember (subtype : Ty Class → Ty Class → m Bool) (c interface : Class) (required : Member) :
    m Bool := do
  match required.name with
  | none =>
    k.note (.unnamedMember interface.name)
    return false
  | some name =>
    match ← k.findMember c name with
    | none =>
      k.note (.missingMember c.name name)
      return false
    | some provided =>
      let providedType ← k.infer provided
      let requiredType ← k.infer required
      if ← subtype providedType requiredType then
        return true
      else
        k.note (.incompatibleMember c.name name providedType.text requiredType.text)
        return false

/--
Whether a class has all of several members of an interface. All of them are looked at in any case.
-/
def hasMembers (subtype : Ty Class → Ty Class → m Bool) (c interface : Class) :
    List Member → m Bool
  | [] => return true
  | required :: rest => do
    let first ← k.hasMember subtype c interface required
    let others ← hasMembers subtype c interface rest
    return first && others

def within (c interface : Class) (comparison : m Bool) : m Bool := do
  let key := (c.name, interface.name)
  match ← k.enter key with
  | .entered =>
    let answer ← comparison
    k.leave key
    return answer
  | .cycle => return true
  | admission =>
    k.note (.comparisonAbandoned c.name interface.name admission)
    return false

/--
Whether a class conforms to an interface. The first argument bounds the nesting of comparisons; the
guard refuses a comparison before that bound is reached.
-/
def conforms (strict : Bool) : Nat → Class → Class → m Bool
  | 0, _, _ => k.beyond
  | room + 1, c, interface => k.within c interface do
    let required ← k.ownMembers interface
    k.hasMembers (Ty.check (k.checkClass (conforms strict room)) strict) c interface required

def subtype (strict : Bool) (room : Nat) : Ty Class → Ty Class → m Bool :=
  Ty.check (k.checkClass (k.conforms strict room)) strict

def isSubclass (c : Class) (target : Ty Class) (strict : Bool) : m Bool := do
  k.checkClass (k.conforms strict (← k.bound)) c target

def isSubtype (source target : Ty Class) (strict : Bool) : m Bool := do
  k.subtype strict (← k.bound) source target

end Checker

namespace Context

def checker (ctx : Context) : Checker Query where
  settle := ctx.settle
  hasAncestor c target := ctx.anyAncestor c (· == target)
  isInterface c := return (← ctx.headerOf c).isInterface
  ownMembers := ctx.ownMembers
  findMember := ctx.findMemberOf
  infer := ctx.infer
  enter := Query.enter
  leave := Query.leave
  bound := return (← get).guard.room + 1
  beyond := return false
  note := Query.note

def isSubclass (ctx : Context) (c : Class) (target : Ty Class) (strict : Bool) : Query Bool :=
  ctx.checker.isSubclass c target strict

def isSubtype (ctx : Context) (source target : Ty Class) (strict : Bool) : Query Bool :=
  ctx.checker.isSubtype source target strict

end Context

end LuaClasses
