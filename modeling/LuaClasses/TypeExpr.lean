import LuaClasses.Json.Shape

/-!
This module contains type expressions, the form in which declarations give types, with their JSON
form.
-/

namespace LuaClasses

inductive TypeExpr where
  /-- The name of a primitive type or of a class. -/
  | named (name : String)
  | array (element : TypeExpr)
  | generic (base : String) (params : List TypeExpr)
  | union (members : List TypeExpr)
  deriving Repr

namespace TypeExpr

def unknown : TypeExpr := .named "unknown"

instance : Inhabited TypeExpr where
  default := unknown

mutual

def beq : TypeExpr → TypeExpr → Bool
  | .named a, .named b => a == b
  | .array a, .array b => beq a b
  | .generic a as, .generic b bs => a == b && beqList as bs
  | .union as, .union bs => beqList as bs
  | _, _ => false

def beqList : List TypeExpr → List TypeExpr → Bool
  | [], [] => true
  | a :: as, b :: bs => beq a b && beqList as bs
  | _, _ => false

end

instance : BEq TypeExpr where
  beq := beq

mutual

/--
The JSON form: a name by itself, any other expression as an object.
-/
def toJson : TypeExpr → Json
  | .named name => .text name
  | .array element => .record [("array", toJson element)]
  | .generic base params =>
    .record [("base", .text base), ("params", .array (listToJson params))]
  | .union members => .record [("union", .array (listToJson members))]

def listToJson : List TypeExpr → List Json
  | [] => []
  | e :: rest => toJson e :: listToJson rest

end

/--
What the value under a key may be read as.
-/
structure Reading where
  key : Option String
  text? : Option String
  expr? : Option TypeExpr
  list? : Option (List TypeExpr)

def single? (readings : List Reading) (key : String) : Option Reading :=
  match readings.filter (·.key == some key) with
  | [reading] => some reading
  | _ => none

/--
The type expression of an object. An object may fit several forms; they are tried in the order
array, generic, union. A form fits if each of its keys stands there once, with a value that can be
read.
-/
def ofReadings? (readings : List Reading) : Option TypeExpr :=
  (do return .array (← (← single? readings "array").expr?)) <|>
  (do return .generic (← (← single? readings "base").text?)
        (← (← single? readings "params").list?)) <|>
  (do return .union (← (← single? readings "union").list?))

mutual

def ofJson? : Json → Option TypeExpr
  | .string s => s.map .named
  | .object entries => ofReadings? (readings entries)
  | _ => none

def readings : List (Option String × Json) → List Reading
  | [] => []
  | (key, v) :: rest =>
    { key, text? := v.text?, expr? := ofJson? v, list? := listOfJson? v } :: readings rest

def listOfJson? : Json → Option (List TypeExpr)
  | .array elements => elementsOfJson? elements
  | _ => none

def elementsOfJson? : List Json → Option (List TypeExpr)
  | [] => some []
  | v :: rest => do return (← ofJson? v) :: (← elementsOfJson? rest)

end

/--
Read a type expression inside `depth` open arrays and objects. It is taken in as a whole before its
form is known.
-/
def readAt? (depth : Nat) (v : Json) : Option TypeExpr :=
  if v.readable depth then ofJson? v else none

end TypeExpr

end LuaClasses
