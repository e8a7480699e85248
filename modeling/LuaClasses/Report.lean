import LuaClasses.Stub

/-!
This module contains the answers to commands, and the two forms in which they are printed.
-/

namespace LuaClasses

structure MemberRow where
  owner : String
  name : String
  type : String
  deriving DecidableEq, Repr

inductive Report where
  | classes (names : List String)
  | members (rows : List MemberRow)
  | result (type : Option String)
  | verdict (holds : Bool)
  | otherNames (names : List String) (recovered : String)
  | encoded (hex : String) (stub : Stub)
  deriving DecidableEq, Repr

namespace Report

def toJson : Report → Json
  | .classes names => .record [("kind", .text "names"), ("names", .texts names)]
  | .members rows =>
    .record
      [("kind", .text "members"),
        ("members", .array (rows.map fun row =>
          .record
            [("owner", .text row.owner), ("name", .text row.name), ("type", .text row.type)]))]
  | .result type => .record [("kind", .text "type"), ("ty", .optionText type)]
  | .verdict holds => .record [("kind", .text "verdict"), ("holds", .bool holds)]
  | .otherNames names recovered =>
    .record [("kind", .text "alias"), ("names", .texts names), ("recovered", .text recovered)]
  | .encoded hex stub => .record [("kind", .text "stub"), ("hex", .text hex), ("stub", stub.toJson)]

def paint (color : Bool) (codes text : String) : String :=
  if color then "\x1b[" ++ codes ++ "m" ++ text ++ "\x1b[0m" else text

def toLines (color : Bool) : Report → List String
  | .classes names => names
  | .members rows => rows.map fun row => row.owner ++ "." ++ row.name ++ ": " ++ row.type
  | .result (some type) => [type]
  | .result none => [paint color "33" "not found"]
  | .verdict true => [paint color "1;32" "yes"]
  | .verdict false => [paint color "1;31" "no"]
  | .otherNames names recovered =>
    ["aliases: " ++ ", ".intercalate names, "recovers to: " ++ recovered]
  | .encoded hex stub =>
    [hex, "class: " ++ stub.className.getD "-", "var: " ++ stub.varName.getD "-",
      "super: " ++ stub.superName.getD "-", "alias: " ++ stub.aliasName.getD "-",
      "flags: " ++ Text.hexNumber stub.flags.bits.toNat]

def render (r : Report) (json color : Bool) : String :=
  if json then r.toJson.indented ++ "\n"
  else String.join ((r.toLines color).map (· ++ "\n"))

end Report

end LuaClasses
