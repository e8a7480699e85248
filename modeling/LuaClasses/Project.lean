import LuaClasses.Declaration
import LuaClasses.Json.Writer

/-!
This module contains the description of a project: the options it is resolved under and everything
that its annotations declare, with its JSON form.
-/

namespace LuaClasses

structure Options where
  /-- A global variable may also mean the class of its name. -/
  globalNamesAsTypes : Bool := true
  deriving DecidableEq, Repr, Inhabited

namespace Options

def toJson (o : Options) : Json :=
  .record [("recognizeGlobalNameAsType", .bool o.globalNamesAsTypes)]

def readAt? (depth : Nat) (v : Json) : Option Options := do
  match ← Json.fieldsAt? depth ["recognizeGlobalNameAsType"] v with
  | [globalNamesAsTypes] =>
    return { globalNamesAsTypes := ← Json.field? true Json.bool? globalNamesAsTypes }
  | _ => none

end Options

/--
A class declaration with the members declared under its name and the file it stands in.
-/
structure ClassEntry where
  decl : ClassDecl
  members : List Member := []
  file : Option String := none
  deriving BEq, Repr, Inhabited

namespace ClassEntry

def toJson (e : ClassEntry) : Json :=
  .record <|
    e.decl.toEntries ++ [("members", .array (e.members.map Member.toJson))] ++
      match e.file with
      | some file => [("file", .text file)]
      | none => []

/--
Read an entry inside `depth` open arrays and objects. The fields of the declaration stand beside the
two of the entry, so whatever is not one of these two is taken in as a whole.
-/
def readAt? (depth : Nat) (v : Json) : Option ClassEntry := do
  let entries ← Json.entriesAt? depth v
  let members ← Json.single? entries "members"
  let file ← Json.single? entries "file"
  let others := entries.filter fun (key, _) => key != "members" && key != "file"
  if others.all fun (_, v) => v.readable (depth + 1) then
    return {
      decl := ← ClassDecl.ofFields? (depth + 1) (← ClassDecl.fieldNames.mapM (Json.single? others))
      members := ← Json.field? [] (Json.listAt? (depth + 1) (Member.readAt? (depth + 2))) members
      file := ← Json.field? none Json.optionText? file }
  else none

end ClassEntry

/--
The members declared under each of several names, in the order of the names.
-/
abbrev MemberTable := List (String × List Member)

namespace MemberTable

/--
Set the members of an owner. An owner that is already there keeps its place.
-/
def set (owner : String) (members : List Member) : MemberTable → MemberTable
  | [] => [(owner, members)]
  | (name, old) :: rest =>
    if name == owner then (name, members) :: rest else (name, old) :: set owner members rest

def toJson (table : MemberTable) : Json :=
  .record (table.map fun (owner, members) => (owner, .array (members.map Member.toJson)))

/--
Read a table inside `depth` open arrays and objects. Of several lists for one owner the last counts.
-/
def readAt? (depth : Nat) (v : Json) : Option MemberTable := do
  let rows ← (← Json.entriesAt? depth v).mapM fun (owner, v) => do
    return (owner, ← Json.listAt? (depth + 1) (Member.readAt? (depth + 2)) v)
  return rows.foldl (fun table (owner, members) => set owner members table) []

end MemberTable

structure Project where
  options : Options := {}
  classes : List ClassEntry := []
  /-- The members of names that may have no class declaration. -/
  members : MemberTable := []
  aliases : List AliasDecl := []
  deriving BEq, Repr, Inhabited

namespace Project

def toJson (p : Project) : Json :=
  .record
    [("options", p.options.toJson), ("classes", .array (p.classes.map ClassEntry.toJson)),
      ("members", MemberTable.toJson p.members),
      ("aliases", .array (p.aliases.map AliasDecl.toJson))]

def toText (p : Project) : String :=
  p.toJson.compact

def ofJson? (v : Json) : Option Project := do
  match ← Json.fieldsAt? 0 ["options", "classes", "members", "aliases"] v with
  | [options, classes, members, aliases] =>
    return {
      options := ← Json.field? {} (Options.readAt? 1) options
      classes := ← Json.field? [] (Json.listAt? 1 (ClassEntry.readAt? 2)) classes
      members := ← Json.field? [] (MemberTable.readAt? 1) members
      aliases := ← Json.field? [] (Json.listAt? 1 (AliasDecl.readAt? 2)) aliases }
  | _ => none

def parse? (text : String) : Option Project := do
  ofJson? (← Json.parse? text)

end Project

end LuaClasses
