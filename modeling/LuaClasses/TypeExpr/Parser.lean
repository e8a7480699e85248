import LuaClasses.Text.Alphanumeric
import LuaClasses.Text.Blank
import LuaClasses.TypeExpr

/-!
This module contains the reader of annotation syntax:

* a union is one or more postfix types with bars between them;
* a postfix type is a primary type with any number of bracket pairs behind it;
* a primary type is a name, which may have parameters in angle brackets behind it, or a union in
  parentheses.

White space may stand before every token and at the end.
-/

namespace LuaClasses
namespace TypeExpr

inductive ParseError where
  /-- A name has to stand in front of this part of the text. -/
  | expectedName (rest : List Char)
  | missingParenthesis
  | missingAngle
  /-- The text goes on with this part after the type. -/
  | unexpected (rest : List Char)
  deriving DecidableEq, Repr

def ParseError.message (text : String) : ParseError → String
  | .expectedName rest =>
    "expected a type name at offset " ++
      toString (Text.byteLength text.toList - Text.byteLength rest) ++ " in '" ++ text ++ "'"
  | .missingParenthesis => "missing ')' in type '" ++ text ++ "'"
  | .missingAngle => "missing '>' in type '" ++ text ++ "'"
  | .unexpected rest => "unexpected '" ++ String.ofList rest ++ "' in type '" ++ text ++ "'"

def eat? (token : List Char) (cs : List Char) : Option (List Char) :=
  let cs := Text.skipBlank cs
  if token.isPrefixOf cs then some (cs.drop token.length) else none

/--
Read a name after white space: as many name characters as there are, at least one.
-/
def name? (cs : List Char) : Except ParseError (String × List Char) :=
  let cs := Text.skipBlank cs
  match cs.takeWhile Text.isNameChar with
  | [] => .error (.expectedName cs)
  | name => .ok (String.ofList name, cs.dropWhile Text.isNameChar)

/--
Read the bracket pairs behind a type. The first argument bounds their number.
-/
def brackets : Nat → TypeExpr → List Char → TypeExpr × List Char
  | 0, e, cs => (e, cs)
  | fuel + 1, e, cs =>
    match eat? ['[', ']'] cs with
    | some rest => brackets fuel (.array e) rest
    | none => (e, cs)

def ofAlternatives : List TypeExpr → TypeExpr
  | [e] => e
  | es => .union es

mutual

/--
Read a union. The first argument bounds the number of steps.
-/
def union? : Nat → List Char → Except ParseError (TypeExpr × List Char)
  | 0, cs => .error (.expectedName cs)
  | fuel + 1, cs => do
    let (es, rest) ← alternatives? fuel cs
    return (ofAlternatives es, rest)

def alternatives? : Nat → List Char → Except ParseError (List TypeExpr × List Char)
  | 0, cs => .error (.expectedName cs)
  | fuel + 1, cs => do
    let (e, rest) ← primary? fuel cs
    let (e, rest) := brackets rest.length e rest
    match eat? ['|'] rest with
    | some rest =>
      let (es, rest) ← alternatives? fuel rest
      return (e :: es, rest)
    | none => return ([e], rest)

def primary? : Nat → List Char → Except ParseError (TypeExpr × List Char)
  | 0, cs => .error (.expectedName cs)
  | fuel + 1, cs =>
    match eat? ['('] cs with
    | some rest => do
      let (e, rest) ← union? fuel rest
      match eat? [')'] rest with
      | some rest => return (e, rest)
      | none => .error .missingParenthesis
    | none => do
      let (name, rest) ← name? cs
      match eat? ['<'] rest with
      | some rest =>
        let (params, rest) ← params? fuel rest
        match eat? ['>'] rest with
        | some rest => return (.generic name params, rest)
        | none => .error .missingAngle
      | none => return (.named name, rest)

def params? : Nat → List Char → Except ParseError (List TypeExpr × List Char)
  | 0, cs => .error (.expectedName cs)
  | fuel + 1, cs => do
    let (e, rest) ← union? fuel cs
    match eat? [','] rest with
    | some rest =>
      let (es, rest) ← params? fuel rest
      return (e :: es, rest)
    | none => return ([e], rest)

end

/--
Read a type that takes up the whole text. From one character to the next the reader takes at most
four steps.
-/
def parse (text : String) : Except ParseError TypeExpr := do
  let cs := text.toList
  let (e, rest) ← union? (4 * cs.length + 4) cs
  match Text.skipBlank rest with
  | [] => return e
  | rest => .error (.unexpected rest)

end TypeExpr
end LuaClasses
