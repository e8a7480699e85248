import LuaClasses.Declaration
import LuaClasses.Flags
import LuaClasses.Identity

/-!
This module contains class values. The identity of a class is its name together with its flags.
What else is known of it depends on its origin: some classes carry all of it, others take it over
from the index the first time that it is needed, and keep it in a cell.
-/

namespace LuaClasses

inductive Origin where
  | declared (header : Header)
  /-- From persisted fields. The index is asked for the rest through the cell. -/
  | serialized (superName aliasName : Option String) (cell : Nat)
  /-- From a name alone. The index is asked for the rest through the cell. -/
  | lazy (cell : Nat)
  | tableLiteral (fields : List Member)
  | docTable (fields : List Member)
  /-- From the name of a doc-table. -/
  | docTableRef
  deriving Repr, Inhabited

namespace Origin

def kind : Origin → String
  | .declared .. => "declared"
  | .serialized .. => "serialized"
  | .lazy .. => "lazy"
  | .tableLiteral .. => "table-literal"
  | .docTable .. => "doc-table"
  | .docTableRef => "doc-table-ref"

/--
What is known of a class before the index is asked.
-/
def header : Origin → Header
  | .declared header => header
  | .serialized superName aliasName _ => { superName, aliasName }
  | _ => {}

def cell? : Origin → Option Nat
  | .serialized _ _ cell => some cell
  | .lazy cell => some cell
  | _ => none

def fields? : Origin → Option (List Member)
  | .tableLiteral fields => some fields
  | .docTable fields => some fields
  | _ => none

end Origin

/--
A class value. The variable name is what a reader of a type is shown.
-/
structure Class where
  name : String
  varName : String
  flags : Flags
  origin : Origin
  deriving Repr, Inhabited

namespace Class

def same (c d : Class) : Bool :=
  c.name == d.name && c.flags == d.flags

instance : BEq Class where
  beq := same

def isAnonymous (c : Class) : Bool :=
  c.flags.contains .anonymous

def isGlobal (c : Class) : Bool :=
  c.flags.contains .global

def isTableLiteral (c : Class) : Bool :=
  match c.origin with
  | .tableLiteral _ => true
  | _ => false

def isEmptyTable (c : Class) : Bool :=
  c.flags.contains .anonymousTable && c.origin.fields?.any List.isEmpty

def displayName (c : Class) : String :=
  if c.flags.contains .anonymousTable then "table" else c.varName

def ofDecl (d : ClassDecl) : Class :=
  { name := d.name, varName := d.name, flags := .empty, origin := .declared d.header }

def ofTableLiteral (file : String) (offset : Nat) (fields : List Member) : Class :=
  let name := Identity.tableLiteral file offset
  { name, varName := name, flags := .union .anonymous .anonymousTable,
    origin := .tableLiteral (fields.map (·.withOwner name)) }

def ofDocTable (file : String) (offset : Nat) (fields : List Member) : Class :=
  let name := Identity.docTable file offset
  { name, varName := name, flags := .anonymous,
    origin := .docTable (fields.map (·.withOwner name)) }

end Class

end LuaClasses
