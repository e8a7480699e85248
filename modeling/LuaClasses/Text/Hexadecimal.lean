import LuaClasses.Text.Blank
import LuaClasses.Text.CodePoint
import LuaClasses.Text.Numeral

/-!
This module contains hexadecimal text: bytes written as pairs of digits, and the reader of such a
text.
-/

namespace LuaClasses
namespace Hex

inductive Error where
  | oddLength
  /-- A character does not fit into the pair that it starts in. -/
  | nonAscii
  /-- The pair at this byte offset is not a number. -/
  | invalidDigits (digits : String) (offset : Nat)
  deriving DecidableEq, Repr

def Error.message : Error → String
  | .oddLength => "hex stub has an odd number of digits"
  | .nonAscii => "hex stub contains non-ASCII characters"
  | .invalidDigits digits offset =>
    "invalid hex digits '" ++ digits ++ "' at offset " ++ toString offset ++
      ": invalid digit found in string"

def encode (bytes : List UInt8) : String :=
  String.ofList (bytes.flatMap Text.hexByte)

/--
The byte that a pair of characters stands for. A plus sign may take the place of the first digit.
-/
def pair? (first second : Char) : Option UInt8 :=
  match if first == '+' then some 0 else Text.hexDigit? first, Text.hexDigit? second with
  | some high, some low => some (UInt8.ofNat (16 * high + low))
  | _, _ => none

/--
The bytes of a text that is read in pairs of bytes, of which the first starts at byte `offset`. A
character of two bytes fills a pair by itself, and is no number.
-/
def decodePairs (offset : Nat) : List Char → Except Error (List UInt8)
  | [] => .ok []
  | [c] => if c.utf8Size == 2 then .error (.invalidDigits (String.singleton c) offset)
    else .error .nonAscii
  | first :: second :: rest =>
    if first.utf8Size == 2 then .error (.invalidDigits (String.singleton first) offset)
    else if first.utf8Size == 1 && second.utf8Size == 1 then
      match pair? first second with
      | some b => (b :: ·) <$> decodePairs (offset + 2) rest
      | none => .error (.invalidDigits (String.ofList [first, second]) offset)
    else .error .nonAscii

def decode (text : String) : Except Error (List UInt8) :=
  let digits := Text.trim text.toList
  if Text.byteLength digits % 2 == 1 then .error .oddLength else decodePairs 0 digits

end Hex
end LuaClasses
