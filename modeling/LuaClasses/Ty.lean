import LuaClasses.TypeExpr

/-!
This module contains types, the meaning of type expressions. What stands for a class is a parameter:
the name of the class where only the shape of a type matters, a class value where its declaration
matters too.
-/

namespace LuaClasses

/--
The primitive types. Every class and every array is a table.
-/
inductive Primitive where
  | boolean
  | number
  | string
  | function
  | table
  deriving DecidableEq, Repr

def Primitive.name : Primitive → String
  | .boolean => "boolean"
  | .number => "number"
  | .string => "string"
  | .function => "function"
  | .table => "table"

/--
A type whose classes are given by `κ`.
-/
inductive Ty (κ : Type) where
  | unknown
  | any
  | nil
  | primitive (p : Primitive)
  | cls (c : κ)
  | array (element : Ty κ)
  | generic (base : Ty κ) (params : List (Ty κ))
  | union (members : List (Ty κ))
  deriving Repr, Inhabited

namespace Ty

mutual

def beq [BEq κ] : Ty κ → Ty κ → Bool
  | .unknown, .unknown => true
  | .any, .any => true
  | .nil, .nil => true
  | .primitive p, .primitive q => p == q
  | .cls c, .cls d => c == d
  | .array a, .array b => beq a b
  | .generic a as, .generic b bs => beq a b && beqList as bs
  | .union as, .union bs => beqList as bs
  | _, _ => false

def beqList [BEq κ] : List (Ty κ) → List (Ty κ) → Bool
  | [], [] => true
  | a :: as, b :: bs => beq a b && beqList as bs
  | _, _ => false

end

instance [BEq κ] : BEq (Ty κ) where
  beq := beq

/--
The types that a type contributes to a union: the members of a union, and any other type itself.
-/
def parts : Ty κ → List (Ty κ)
  | .union members => members
  | t => [t]

/--
The union of types. Unions among them are merged into it, a repeated type counts once, and a single
type is its own union.
-/
def unionOf [BEq κ] (types : List (Ty κ)) : Ty κ :=
  match (types.flatMap parts).eraseDups with
  | [] => .unknown
  | [t] => t
  | members => .union members

def class? : Ty κ → Option κ
  | .cls c => some c
  | _ => none

def isTable : Ty κ → Bool
  | .primitive .table => true
  | .generic base _ => isTable base
  | _ => false

def isArray : Ty κ → Bool
  | .array _ => true
  | _ => false

def ofName (name : String) : Ty String :=
  match name with
  | "any" => .any
  | "unknown" => .unknown
  | "nil" => .nil
  | "void" => .nil
  | "boolean" => .primitive .boolean
  | "number" => .primitive .number
  | "integer" => .primitive .number
  | "string" => .primitive .string
  | "function" => .primitive .function
  | "table" => .primitive .table
  | _ => .cls name

mutual

def ofExpr : TypeExpr → Ty String
  | .named name => ofName name
  | .array element => .array (ofExpr element)
  | .generic base params => .generic (ofName base) (ofExprs params)
  | .union members => unionOf (ofExprs members)

def ofExprs : List TypeExpr → List (Ty String)
  | [] => []
  | e :: rest => ofExpr e :: ofExprs rest

end

mutual

/--
The text of a type, given the text of its classes. A union is put in parentheses where a bracket
pair would otherwise bind to its last member alone.
-/
def display (className : κ → String) : Ty κ → String
  | .unknown => "unknown"
  | .any => "any"
  | .nil => "nil"
  | .primitive p => p.name
  | .cls c => className c
  | .array (.union members) => "(" ++ displayUnion className members ++ ")[]"
  | .array element => display className element ++ "[]"
  | .generic base params => display className base ++ "<" ++ displayParams className params ++ ">"
  | .union members => displayUnion className members

def displayUnion (className : κ → String) : List (Ty κ) → String
  | [] => ""
  | [t] => display className t
  | t :: rest => display className t ++ "|" ++ displayUnion className rest

def displayParams (className : κ → String) : List (Ty κ) → String
  | [] => ""
  | [t] => display className t
  | t :: rest => display className t ++ ", " ++ displayParams className rest

end

mutual

/--
Replace each class by an action on it, from left to right.
-/
def mapM [Monad m] (f : κ → m ν) : Ty κ → m (Ty ν)
  | .unknown => pure .unknown
  | .any => pure .any
  | .nil => pure .nil
  | .primitive p => pure (.primitive p)
  | .cls c => do return .cls (← f c)
  | .array element => do return .array (← mapM f element)
  | .generic base params => do return .generic (← mapM f base) (← mapListM f params)
  | .union members => do return .union (← mapListM f members)

def mapListM [Monad m] (f : κ → m ν) : List (Ty κ) → m (List (Ty ν))
  | [] => pure []
  | t :: rest => do return (← mapM f t) :: (← mapListM f rest)

end

end Ty

end LuaClasses
