import LuaClasses.Text.Numeral

/-!
This module contains the numerals of JSON text, kept as they are written. What is asked of a
numeral is whether it is a natural number, and whether a double can hold its size.
-/

namespace LuaClasses
namespace Json

/--
A numeral as it is written: the digits before the point, those after it, and the exponent with its
sign. There are no digits after the point exactly if there is no point.
-/
structure Numeral where
  negative : Bool
  whole : List Char
  fraction : List Char
  exponent : Option (Bool × List Char)
  deriving DecidableEq, Repr

namespace Numeral

def ofNat (n : Nat) : Numeral :=
  { negative := false, whole := Nat.toDigits 10 n, fraction := [], exponent := none }

/--
The natural number that the numeral stands for, if it is written without sign, point and exponent.
-/
def nat? (n : Numeral) : Option Nat :=
  if n.negative || !n.fraction.isEmpty || n.exponent.isSome then none
  else some (Text.ofDigits n.whole)

def toChars (n : Numeral) : List Char :=
  (if n.negative then ['-'] else []) ++ n.whole ++
    (if n.fraction.isEmpty then [] else '.' :: n.fraction) ++
    match n.exponent with
    | none => []
    | some (negative, digits) => 'e' :: (if negative then '-' :: digits else digits)

/--
The natural number with 53 significant bits that is nearest to `n`; of two equally near ones, the
one with an even last bit.
-/
def roundToDouble (n : Nat) : Nat :=
  let shift := n.log2 - 52
  let unit := 1 <<< shift
  let below := n / unit
  let twice := 2 * (n % unit)
  if twice < unit || (twice == unit && below % 2 == 0) then below * unit else (below + 1) * unit

/--
Append decimal digits to a number for as long as it stays below `2 ^ 64`. The second result counts
the digits that were left out.
-/
def appendDigits (n : Nat) : List Char → Nat × Nat
  | [] => (n, 0)
  | c :: rest =>
    let m := 10 * n + Text.digitValue c
    if m < UInt64.size then appendDigits m rest else (n, rest.length + 1)

/--
Whether the size of the numeral is within the range of a double. The significant digits are first
cut to 64 bits; then both they and the power of ten are rounded, and so is their product.
-/
def inDoubleRange (n : Numeral) : Bool :=
  let (whole, wholeLeft) := appendDigits 0 n.whole
  let (significand, fractionLeft) := appendDigits whole n.fraction
  let scale : Int := wholeLeft - (n.fraction.length - fractionLeft : Nat)
  let exponent : Int := match n.exponent with
    | none => 0
    | some (negative, digits) =>
      if negative then -(Text.ofDigits digits : Int) else Text.ofDigits digits
  let power := scale + exponent
  if significand == 0 || power < 0 then true
  else if 308 < power then false
  else roundToDouble (roundToDouble significand * roundToDouble (Nat.pow 10 power.toNat)) < 1 <<< 1024

end Numeral

end Json
end LuaClasses
