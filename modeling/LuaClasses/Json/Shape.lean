import LuaClasses.Json.Reader

/-!
This module contains what the readers of project data have in common: they look at a value under a
number of open arrays and objects, take its parts if it has the expected shape, and answer `none`
if it has not.
-/

namespace LuaClasses
namespace Json

def text? : Json → Option String
  | .string s => s
  | _ => none

def optionText? : Json → Option (Option String)
  | .null => some none
  | .string s => s.map some
  | _ => none

def bool? : Json → Option Bool
  | .bool b => some b
  | _ => none

/--
The natural number below `2 ^ 32`, written without sign, point and exponent.
-/
def word? : Json → Option UInt32
  | .number n => match n.nat? with
    | some k => if k < UInt32.size then some (UInt32.ofNat k) else none
    | none => none
  | _ => none

def elementsAt? (depth : Nat) : Json → Option (List Json)
  | .array elements => if depth < maxDepth then some elements else none
  | _ => none

/--
The entries of an object inside `depth` others. Every key has to be a text.
-/
def entriesAt? (depth : Nat) : Json → Option (List (String × Json))
  | .object entries =>
    if depth < maxDepth then entries.mapM fun (key, v) => key.map (·, v) else none
  | _ => none

def listAt? (depth : Nat) (read? : Json → Option α) (v : Json) : Option (List α) := do
  (← elementsAt? depth v).mapM read?

/--
The value under a key that may stand at most once among the entries.
-/
def single? (entries : List (String × Json)) (key : String) : Option (Option Json) :=
  match entries.filter (·.1 == key) with
  | [] => some none
  | [(_, v)] => some (some v)
  | _ => none

/--
The fields of a record, in the order of `names`, where a field that is not given is `none`. A record
is an object, whose other keys are ignored, or an array of its first fields.
-/
def fieldsAt? (depth : Nat) (names : List String) : Json → Option (List (Option Json))
  | .array elements =>
    if depth < maxDepth && elements.length ≤ names.length then
      some (elements.map some ++ List.replicate (names.length - elements.length) none)
    else none
  | v => do
    let entries ← entriesAt? depth v
    names.mapM (single? entries)

def field? (default : α) (read? : Json → Option α) : Option Json → Option α
  | some v => read? v
  | none => some default

end Json
end LuaClasses
