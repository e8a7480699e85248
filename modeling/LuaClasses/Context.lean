import LuaClasses.Query

/-!
This module contains the context of a query: what it is asked about, and the only way in which it
reaches the index. A look-up that fails is recorded, and then counts as one that found nothing.
-/

namespace LuaClasses

/--
The context of a query. Each look-up is shown to `observe` before it is answered.
-/
structure Context where
  index : Index
  options : Options := {}
  scope : Scope := .project
  observe : Lookup → Query Unit := fun _ => pure ()

namespace Context

/--
Show a look-up of a name to the observer, then answer it. A failure is recorded and replaced by
`absent`.
-/
def ask (ctx : Context) (l : Lookup) (absent : α) (answer : Except IndexError α) : Query α := do
  ctx.observe l
  match answer with
  | .ok a => return a
  | .error e =>
    Query.note (.lookupFailed l.operation e)
    return absent

def findClass (ctx : Context) (name : String) : Query (Option ClassDecl) :=
  ctx.ask (.classDecl name) none (ctx.index.findClass name)

def membersOf (ctx : Context) (name : String) : Query (List Member) :=
  ctx.ask (.members name) [] (ctx.index.membersOf name)

def findMember (ctx : Context) (owner member : String) : Query (Option Member) :=
  ctx.ask (.member owner member) none (ctx.index.findMember owner member)

def findAlias (ctx : Context) (name : String) : Query (Option AliasDecl) :=
  ctx.ask (.typeAlias name) none (ctx.index.findAlias name)

def inheritsFrom (ctx : Context) (candidate base : String) : Query Bool := do
  ctx.observe (.inheritance ctx.scope candidate base)
  return ctx.index.inheritsFrom ctx.scope candidate base

def infer (ctx : Context) (m : Member) : Query (Ty Class) := do
  ctx.observe (.inference m.owner m.name)
  (Ty.ofExpr m.type).instantiate

def resolve (ctx : Context) (name : String) : Query (Option Class) := do
  return (← ctx.findClass name).map Class.ofDecl

/--
Ask the index for a class, unless that has been done. Until the index has answered, the class is
what it was when it was made.
-/
def settle (ctx : Context) (c : Class) : Query Unit := do
  match c.origin.cell? with
  | none => return
  | some cell =>
    if (← Query.getCell cell) = .uninitialized then
      Query.setCell cell .initializing
      match ← ctx.findClass c.name with
      | some d =>
        Query.note (.populated c.name c.origin.kind d.header.superName)
        Query.setCell cell (.ready (some d.header))
      | none =>
        Query.note (.notDeclared c.name c.origin.kind)
        Query.setCell cell (.ready none)

def headerOf (ctx : Context) (c : Class) : Query Header := do
  ctx.settle c
  c.header

end Context

end LuaClasses
