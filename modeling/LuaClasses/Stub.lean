import LuaClasses.Query
import LuaClasses.Stub.Cursor

/-!
This module contains stubs, the form in which class identities are persisted: four optional names
and the flags. What is not in a stub is recovered from the index.
-/

namespace LuaClasses

structure Stub where
  className : Option String
  varName : Option String
  superName : Option String
  aliasName : Option String
  flags : Flags
  deriving DecidableEq, Repr, Inhabited

namespace Stub

def toJson (s : Stub) : Json :=
  .record
    [("className", .optionText s.className), ("varName", .optionText s.varName),
      ("superClassName", .optionText s.superName), ("aliasName", .optionText s.aliasName),
      ("flags", .nat s.flags.bits.toNat)]

/--
Read a stub from JSON. The flags are required; a name may be missing in an object, but not in an
array.
-/
def ofJson? (v : Json) : Option Stub := do
  let fields ← Json.fieldsAt? 0 ["className", "varName", "superClassName", "aliasName", "flags"] v
  match fields with
  | [className, varName, superName, aliasName, some flags] =>
    return {
      className := ← Json.field? none Json.optionText? className
      varName := ← Json.field? none Json.optionText? varName
      superName := ← Json.field? none Json.optionText? superName
      aliasName := ← Json.field? none Json.optionText? aliasName
      flags := ⟨← flags.word?⟩ }
  | _ => none

def ofClass (c : Class) : Query Stub := do
  let header ← c.header
  return {
    className := some c.name, varName := some c.varName, superName := header.superName,
    aliasName := header.aliasName, flags := c.flags }

def toBytes (s : Stub) : Except Error (List UInt8) := do
  let className ← nameBytes s.className
  let varName ← nameBytes s.varName
  let superName ← nameBytes s.superName
  let aliasName ← nameBytes s.aliasName
  return className ++ varName ++ superName ++ aliasName ++ varintBytes s.flags.bits.toNat

def read : Reader Stub := do
  return {
    className := ← Reader.name
    varName := ← Reader.name
    superName := ← Reader.name
    aliasName := ← Reader.name
    flags := ⟨UInt32.ofNat (← Reader.varint)⟩ }

def toClass (s : Stub) : Except Error (Query Class) :=
  match s.className with
  | some name => .ok (Class.ofFields name s.varName s.superName s.aliasName s.flags)
  | none => .error .missingClassName

def encode (c : Class) : Query (Except Error (List UInt8)) := do
  return (← ofClass c).toBytes

/--
The class of a byte string, of which only the start is read.
-/
def decode (bytes : List UInt8) : Except Error (Query Class) := do
  let (stub, _) := read.run.run (Cursor.start bytes)
  (← stub).toClass

end Stub

end LuaClasses
