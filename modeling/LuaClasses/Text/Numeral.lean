/-!
This module contains the readers and writers of numerals: unsigned decimal numbers, the texts that
denote a real number, and hexadecimal numbers.
-/

namespace LuaClasses
namespace Text

def digitValue (c : Char) : Nat :=
  c.toNat - '0'.toNat

def ofDigits (digits : List Char) : Nat :=
  digits.foldl (fun n c => 10 * n + digitValue c) 0

/--
Read an unsigned decimal number: at least one digit, after an optional plus sign. Leading zeros do
not change the number.
-/
def readNat? (cs : List Char) : Option Nat :=
  let digits := match cs with
    | '+' :: rest => rest
    | _ => cs
  if digits.isEmpty || !digits.all Char.isDigit then none else some (ofDigits digits)

def lowerCase (cs : List Char) : List Char :=
  cs.map Char.toLower

/--
Whether the text is an exponent: nothing at all, or the mark `e` with an optional sign and at least
one digit.
-/
def isExponent : List Char → Bool
  | [] => true
  | mark :: rest =>
    let digits := match rest with
      | '+' :: digits => digits
      | '-' :: digits => digits
      | digits => digits
    (mark == 'e' || mark == 'E') && !digits.isEmpty && digits.all Char.isDigit

/--
Whether the text, which has no sign, denotes a real number, infinity or no number: decimal digits
with an optional point and exponent, where one side of the point may be empty, or one of the words
for the special values in any case.
-/
def isUnsignedReal (cs : List Char) : Bool :=
  let whole := cs.takeWhile Char.isDigit
  let (fraction, rest) := match cs.dropWhile Char.isDigit with
    | '.' :: rest => (rest.takeWhile Char.isDigit, rest.dropWhile Char.isDigit)
    | rest => ([], rest)
  if whole.isEmpty && fraction.isEmpty then
    let word := String.ofList (lowerCase cs)
    word == "inf" || word == "infinity" || word == "nan"
  else
    isExponent rest

def isReal : List Char → Bool
  | '+' :: cs => isUnsignedReal cs
  | '-' :: cs => isUnsignedReal cs
  | cs => isUnsignedReal cs

def hexDigit? (c : Char) : Option Nat :=
  if c.isDigit then some (digitValue c)
  else if 'a' ≤ c && c ≤ 'f' then some (c.toNat - 'a'.toNat + 10)
  else if 'A' ≤ c && c ≤ 'F' then some (c.toNat - 'A'.toNat + 10)
  else none

theorem hexDigit?_digitChar {n : Nat} (h : n < 16) : hexDigit? (Nat.digitChar n) = some n := by
  have hall : ∀ k : Fin 16, hexDigit? (Nat.digitChar k) = some k.val := by decide
  exact hall ⟨n, h⟩

def hexDigits (n : Nat) : String :=
  String.ofList (Nat.toDigits 16 n)

def hexNumber (n : Nat) : String :=
  "0x" ++ hexDigits n

def hexByte (b : UInt8) : List Char :=
  [Nat.digitChar (b.toNat / 16), Nat.digitChar (b.toNat % 16)]

end Text
end LuaClasses
