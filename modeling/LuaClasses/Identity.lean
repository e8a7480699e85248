import LuaClasses.Text.Numeral

/-!
This module contains the names of types that no declaration names: every such type has a name that
is derived from the place or the variable it belongs to. The forms are persisted in stubs.
-/

namespace LuaClasses
namespace Identity

/--
The global environment table. It is its own global type.
-/
def globalRoot : String := "_G"

def globalType (name : String) : String :=
  if name = globalRoot then name else "$" ++ name

def anonymous (file : String) (offset : Nat) : String :=
  toString offset ++ "@" ++ file

def tableLiteral (file : String) (offset : Nat) : String :=
  file ++ "@(" ++ toString offset ++ ")table"

def docTableTag : Nat := 10

def docTable (file : String) (offset : Nat) : String :=
  toString docTableTag ++ "|" ++ file ++ "|" ++ toString offset

def cutBar? : List Char → Option (List Char × List Char)
  | [] => none
  | c :: rest =>
    if c = '|' then some ([], rest)
    else (fun (before, after) => (c :: before, after)) <$> cutBar? rest

/--
The file and the text of the offset in the name of a doc-table: the parts after the first and the
second bar, if the part before them is the number of doc-tables.
-/
def parseDocTable? (name : String) : Option (String × String) := do
  let (tag, rest) ← cutBar? name.toList
  let (file, offset) ← cutBar? rest
  if Text.readNat? tag = some docTableTag then
    some (String.ofList file, String.ofList offset)
  else none

def numberKey (text : String) : String :=
  "[" ++ text ++ "]"

/--
The member that stands for every number key without a member of its own.
-/
def anyNumberKey : String := "[number]"

def anyStringKey : String := "[string]"

end Identity
end LuaClasses
