import LuaClasses.TypeExpr

/-!
This module contains what annotations declare: classes, their members, and aliases, each with its
JSON form.
-/

namespace LuaClasses

inductive Visibility where
  | pub
  | prot
  | priv
  deriving DecidableEq, Repr, Inhabited

def Visibility.name : Visibility → String
  | .pub => "public"
  | .prot => "protected"
  | .priv => "private"

def Visibility.ofName? (name : String) : Option Visibility :=
  if name = "public" then some .pub
  else if name = "protected" then some .prot
  else if name = "private" then some .priv
  else none

/--
Read a visibility inside `depth` open arrays and objects: its word, or an object with the word as
its only key and nothing under it.
-/
def Visibility.readAt? (depth : Nat) (v : Json) : Option Visibility :=
  match v with
  | .string (some name) => ofName? name
  | .object [(some name, .null)] => if depth < Json.maxDepth then ofName? name else none
  | _ => none

/--
A member of a class: a field or a method. Its owner is the name under which it is declared. A member
from malformed source may have no name.
-/
structure Member where
  name : Option String
  owner : String
  visibility : Visibility
  type : TypeExpr
  deriving BEq, Repr, Inhabited

namespace Member

def new (name : String) (visibility : Visibility) (type : TypeExpr) : Member :=
  { name := some name, owner := "", visibility, type }

def unnamed (type : TypeExpr) : Member :=
  { name := none, owner := "", visibility := .pub, type }

def withOwner (m : Member) (owner : String) : Member :=
  { m with owner }

def isNamed (m : Member) (name : String) : Bool :=
  m.name == some name

def toJson (m : Member) : Json :=
  .record
    [("name", .optionText m.name), ("owner", .text m.owner),
      ("visibility", .text m.visibility.name), ("type", m.type.toJson)]

def readAt? (depth : Nat) (v : Json) : Option Member := do
  match ← Json.fieldsAt? depth ["name", "owner", "visibility", "type"] v with
  | [name, owner, visibility, type] =>
    return {
      name := ← Json.field? none Json.optionText? name
      owner := ← Json.field? "" Json.text? owner
      visibility := ← Json.field? .pub (Visibility.readAt? (depth + 1)) visibility
      type := ← Json.field? .unknown (TypeExpr.readAt? (depth + 1)) type }
  | _ => none

end Member

structure Header where
  superName : Option String := none
  interfaceNames : List String := []
  aliasName : Option String := none
  isInterface : Bool := false
  isEnum : Bool := false
  deriving DecidableEq, Repr, Inhabited

def Header.parents (h : Header) : List String :=
  h.superName.toList ++ h.interfaceNames

structure ClassDecl where
  name : String
  header : Header
  deriving DecidableEq, Repr, Inhabited

namespace ClassDecl

def ofName (name : String) : ClassDecl :=
  { name, header := {} }

def withSuper (d : ClassDecl) (superName : Option String) : ClassDecl :=
  { d with header := { d.header with superName } }

def withInterfaces (d : ClassDecl) (interfaceNames : List String) : ClassDecl :=
  { d with header := { d.header with interfaceNames } }

def withAlias (d : ClassDecl) (aliasName : Option String) : ClassDecl :=
  { d with header := { d.header with aliasName } }

def asInterface (d : ClassDecl) : ClassDecl :=
  { d with header := { d.header with isInterface := true } }

def asEnum (d : ClassDecl) : ClassDecl :=
  { d with header := { d.header with isEnum := true } }

def toEntries (d : ClassDecl) : List (String × Json) :=
  [("name", .text d.name), ("superClassName", .optionText d.header.superName),
    ("interfaceNames", .texts d.header.interfaceNames),
    ("aliasName", .optionText d.header.aliasName),
    ("isInterface", .bool d.header.isInterface), ("isEnum", .bool d.header.isEnum)]

def toJson (d : ClassDecl) : Json :=
  .record d.toEntries

def fieldNames : List String :=
  ["name", "superClassName", "interfaceNames", "aliasName", "isInterface", "isEnum"]

def ofFields? (depth : Nat) : List (Option Json) → Option ClassDecl
  | [name, superName, interfaceNames, aliasName, isInterface, isEnum] => do
    return {
      name := ← Json.field? "" Json.text? name
      header := {
        superName := ← Json.field? none Json.optionText? superName
        interfaceNames := ← Json.field? [] (Json.listAt? depth Json.text?) interfaceNames
        aliasName := ← Json.field? none Json.optionText? aliasName
        isInterface := ← Json.field? false Json.bool? isInterface
        isEnum := ← Json.field? false Json.bool? isEnum } }
  | _ => none

def read? (v : Json) : Option ClassDecl := do
  ofFields? 1 (← Json.fieldsAt? 0 fieldNames v)

end ClassDecl

structure AliasDecl where
  name : String
  type : TypeExpr
  deriving BEq, Repr, Inhabited

namespace AliasDecl

def toJson (a : AliasDecl) : Json :=
  .record [("name", .text a.name), ("type", a.type.toJson)]

def readAt? (depth : Nat) (v : Json) : Option AliasDecl := do
  match ← Json.fieldsAt? depth ["name", "type"] v with
  | [some name, some type] =>
    return { name := ← name.text?, type := ← TypeExpr.readAt? (depth + 1) type }
  | _ => none

end AliasDecl

end LuaClasses
