import LuaClasses.Json.Value

/-!
This module contains the two text forms of a JSON value: the compact one, without any white space,
and the indented one, with a line for each element and entry.
-/

namespace LuaClasses
namespace Json

/--
A character as it stands inside a string literal. Only the quote, the backslash and the control
characters are escaped.
-/
def escapeChar (c : Char) : List Char :=
  if c == '"' then ['\\', '"']
  else if c == '\\' then ['\\', '\\']
  else if c.toNat == 8 then ['\\', 'b']
  else if c.toNat == 9 then ['\\', 't']
  else if c.toNat == 10 then ['\\', 'n']
  else if c.toNat == 12 then ['\\', 'f']
  else if c.toNat == 13 then ['\\', 'r']
  else if c.toNat < 32 then
    ['\\', 'u', '0', '0', Nat.digitChar (c.toNat / 16), Nat.digitChar (c.toNat % 16)]
  else [c]

/--
A string literal. One that denotes no text is written as half of a surrogate pair.
-/
def literal : Option String → List Char
  | some s => '"' :: s.toList.flatMap escapeChar ++ ['"']
  | none => ['"', '\\', 'u', 'd', '8', '0', '0', '"']

mutual

def compactChars : Json → List Char
  | .null => ['n', 'u', 'l', 'l']
  | .bool true => ['t', 'r', 'u', 'e']
  | .bool false => ['f', 'a', 'l', 's', 'e']
  | .number n => n.toChars
  | .string s => literal s
  | .array [] => ['[', ']']
  | .array (v :: rest) => '[' :: compactChars v ++ compactElements rest
  | .object [] => ['\x7b', '\x7d']
  | .object ((key, v) :: rest) =>
    '\x7b' :: literal key ++ ':' :: compactChars v ++ compactEntries rest

/--
The elements after the first one, each with the comma before it, and the closing bracket.
-/
def compactElements : List Json → List Char
  | [] => [']']
  | v :: rest => ',' :: compactChars v ++ compactElements rest

def compactEntries : List (Option String × Json) → List Char
  | [] => ['\x7d']
  | (key, v) :: rest => ',' :: literal key ++ ':' :: compactChars v ++ compactEntries rest

end

def compact (v : Json) : String :=
  String.ofList (compactChars v)

def lineBreak (depth : Nat) : String :=
  "\n" ++ String.ofList (List.replicate (2 * depth) ' ')

mutual

/--
The indented form, of which all lines but the first are indented by `depth` steps.
-/
def indentedAt (depth : Nat) : Json → String
  | .array (v :: rest) =>
    "[" ++ lineBreak (depth + 1) ++ indentedAt (depth + 1) v ++ indentedElements (depth + 1) rest ++
      lineBreak depth ++ "]"
  | .object ((key, v) :: rest) =>
    "\x7b" ++ lineBreak (depth + 1) ++ String.ofList (literal key) ++ ": " ++
      indentedAt (depth + 1) v ++ indentedEntries (depth + 1) rest ++ lineBreak depth ++ "\x7d"
  | v => compact v

def indentedElements (depth : Nat) : List Json → String
  | [] => ""
  | v :: rest => "," ++ lineBreak depth ++ indentedAt depth v ++ indentedElements depth rest

def indentedEntries (depth : Nat) : List (Option String × Json) → String
  | [] => ""
  | (key, v) :: rest =>
    "," ++ lineBreak depth ++ String.ofList (literal key) ++ ": " ++ indentedAt depth v ++
      indentedEntries depth rest

end

/--
The indented form: two spaces a level, and nothing inside an empty array or object.
-/
def indented (v : Json) : String :=
  indentedAt 0 v

end Json
end LuaClasses
