import LuaClasses.Json.Number

/-!
This module contains JSON values as they stand in a text: the entries of an object keep their order
and their repetitions, numerals keep their spelling, and a string may fail to be a text.
-/

namespace LuaClasses

/--
A JSON value. A string literal is `none` if it is well formed but denotes no text, because one of
its escapes is half of a surrogate pair.
-/
inductive Json where
  | null
  | bool (b : Bool)
  | number (n : Json.Numeral)
  | string (s : Option String)
  | array (elements : List Json)
  | object (entries : List (Option String × Json))
  deriving Repr, Inhabited

namespace Json

def text (s : String) : Json :=
  .string (some s)

def nat (n : Nat) : Json :=
  .number (.ofNat n)

def optionText : Option String → Json
  | some s => text s
  | none => .null

def texts (ss : List String) : Json :=
  .array (ss.map text)

def record (entries : List (String × Json)) : Json :=
  .object (entries.map fun (key, value) => (some key, value))

/--
The number of arrays and objects that may be open at once in a text that is read.
-/
def maxDepth : Nat := 127

mutual

/--
Whether a value can be taken in as a whole when `depth` arrays and objects are open around it: it
does not nest too deeply, its strings are texts, and its numbers are within range.
-/
def readable (depth : Nat) : Json → Bool
  | .null => true
  | .bool _ => true
  | .number n => n.inDoubleRange
  | .string s => s.isSome
  | .array elements => depth < maxDepth && readableElements (depth + 1) elements
  | .object entries => depth < maxDepth && readableEntries (depth + 1) entries

def readableElements (depth : Nat) : List Json → Bool
  | [] => true
  | v :: rest => readable depth v && readableElements depth rest

def readableEntries (depth : Nat) : List (Option String × Json) → Bool
  | [] => true
  | (key, v) :: rest => key.isSome && readable depth v && readableEntries depth rest

end

end Json

end LuaClasses
