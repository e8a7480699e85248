import LuaClasses.Text.Numeral

/-!
This module contains the reading of stub data: a cursor into the bytes, the ways in which reading
can fail, and numbers of variable length.
-/

namespace LuaClasses
namespace Stub

/--
Why stub data cannot be read or written. An offset is the number of bytes before the place.
-/
inductive Error where
  | unexpectedEnd (offset : Nat)
  /-- The byte that says whether a name is present says neither. -/
  | invalidTag (tag : UInt8) (offset : Nat)
  | invalidText (offset : Nat)
  /-- A number does not fit into 32 bits. -/
  | overflow (offset : Nat)
  /-- There is no class without a class name. -/
  | missingClassName
  /-- The length of a name does not fit into 32 bits. -/
  | nameTooLong (length : Nat)
  deriving DecidableEq, Repr

def Error.message : Error → String
  | .unexpectedEnd offset => "unexpected end of stub data at byte " ++ toString offset
  | .invalidTag tag offset =>
    "invalid presence tag 0x" ++ String.ofList (Text.hexByte tag) ++ " at byte " ++ toString offset
  | .invalidText offset => "string at byte " ++ toString offset ++ " is not valid UTF-8"
  | .overflow offset => "varint at byte " ++ toString offset ++ " does not fit in 32 bits"
  | .missingClassName => "class stub has no class name"
  | .nameTooLong length =>
    "name of " ++ toString length ++ " bytes is too long for a stub"

structure Cursor where
  offset : Nat
  rest : List UInt8
  deriving DecidableEq, Repr

namespace Cursor

def start (bytes : List UInt8) : Cursor :=
  { offset := 0, rest := bytes }

def atEnd (c : Cursor) : Bool :=
  c.rest.isEmpty

def length (c : Cursor) : Nat :=
  c.offset + c.rest.length

def advance (c : Cursor) (n : Nat) : Cursor :=
  { offset := c.offset + n, rest := c.rest.drop n }

end Cursor

/--
A reader of stub data. After a failure the cursor stands where the reader gave up.
-/
abbrev Reader := ExceptT Error (StateM Cursor)

namespace Reader

def byte : Reader UInt8 := do
  let c ← get
  match c.rest with
  | b :: rest =>
    set { offset := c.offset + 1, rest : Cursor }
    return b
  | [] => throw (.unexpectedEnd c.offset)

/--
Read the groups of a number from `place` on: seven bits a byte, the least significant first, where
the high bit of a byte says that another group follows. The last argument is the number of groups
that may follow; of the fifth, only four bits fit.
-/
def groups (start place value : Nat) : Nat → Reader Nat
  | 0 => throw (.overflow start)
  | left + 1 => do
    let b ← byte
    let low := b.toNat % 128
    if left = 0 ∧ 16 ≤ low then
      throw (.overflow start)
    else
      let value := value + low * place
      if b.toNat < 128 then return value else groups start (128 * place) value left

def varint : Reader Nat := do
  let c ← get
  groups c.offset 1 0 5

/--
Read `n` bytes as a text. The cursor moves only if they are one.
-/
def text (n : Nat) : Reader String := do
  let c ← get
  if c.rest.length < n then
    throw (.unexpectedEnd c.length)
  else
    match String.fromUTF8? (ByteArray.mk (c.rest.take n).toArray) with
    | some s =>
      set (c.advance n)
      return s
    | none => throw (.invalidText c.offset)

/--
Read a name: a byte that says whether there is one, then its length and its bytes.
-/
def name : Reader (Option String) := do
  let c ← get
  let tag ← byte
  if tag = 0 then
    return none
  else if tag = 1 then
    let length ← varint
    return some (← text length)
  else
    throw (.invalidTag tag c.offset)

end Reader

def varintBytes (n : Nat) : List UInt8 :=
  if n < 128 then [UInt8.ofNat n] else UInt8.ofNat (n % 128 + 128) :: varintBytes (n / 128)
termination_by n

def nameBytes : Option String → Except Error (List UInt8)
  | none => .ok [0]
  | some s =>
    let bytes := s.toUTF8.data.toList
    if bytes.length < UInt32.size then .ok (1 :: varintBytes bytes.length ++ bytes)
    else .error (.nameTooLong bytes.length)

end Stub
end LuaClasses
