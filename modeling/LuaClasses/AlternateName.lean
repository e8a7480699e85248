import LuaClasses.Context

/-!
This module contains the two ways in which a class goes by another name: its declaration may give
the class an alternate name, under which members are declared too, and its own name may be declared
as an alias of a type.
-/

namespace LuaClasses

namespace Context

/--
The alternate names of a class: the one that its declaration gives, and with it the name of the
global variable of the class, if such names count as types.
-/
def alternateNames (ctx : Context) (c : Class) : Query (List String) := do
  match (← ctx.headerOf c).aliasName with
  | none => return []
  | some name =>
    if name = c.name then
      return []
    else if c.isAnonymous || c.isGlobal || !ctx.options.globalNamesAsTypes then
      return [name]
    else
      return [name, Identity.globalType c.name]

def walkAlternateNames (ctx : Context) (c : Class) (visit : String → StateT σ Query Bool) :
    StateT σ Query Bool := do
  let names ← ctx.alternateNames c
  names.allM visit

/--
The type that the name of a class is an alias of, changed by `substitute`; the class itself, if its
name is no alias. The names of anonymous and global classes and of doc-tables are none.
-/
def recoverAlias (ctx : Context) (c : Class) (substitute : Ty Class → Ty Class) :
    Query (Ty Class) := do
  let isReference := match c.origin with
    | .docTableRef => true
    | _ => false
  if c.isAnonymous || c.isGlobal || isReference then
    return .cls c
  else
    match ← ctx.findAlias c.name with
    | some a =>
      Query.note (.aliasFound c.name)
      return substitute (← (Ty.ofExpr a.type).instantiate)
    | none => return .cls c

end Context

end LuaClasses
