import LuaClasses.Json.Value

/-!
This module contains the reader of JSON text. It accepts the strict grammar and nothing else: no
comments, no trailing commas, and only white space after the value.
-/

namespace LuaClasses
namespace Json

def isSpace (c : Char) : Bool :=
  c == ' ' || c == '\n' || c == '\t' || c == '\r'

def skipSpace (cs : List Char) : List Char :=
  cs.dropWhile isSpace

def hexUnit? (a b c d : Char) : Option Nat := do
  return 4096 * (← Text.hexDigit? a) + 256 * (← Text.hexDigit? b) + 16 * (← Text.hexDigit? c) +
    (← Text.hexDigit? d)

def isHighSurrogate (unit : Nat) : Bool :=
  0xd800 ≤ unit && unit < 0xdc00

def isLowSurrogate (unit : Nat) : Bool :=
  0xdc00 ≤ unit && unit < 0xe000

def shortEscape? (c : Char) : Option Char :=
  if c == '"' || c == '\\' || c == '/' then some c
  else if c == 'b' then some (Char.ofNat 8)
  else if c == 'f' then some (Char.ofNat 12)
  else if c == 'n' then some '\n'
  else if c == 'r' then some '\r'
  else if c == 't' then some '\t'
  else none

/--
What stands for a part of the text between the quotes of a literal: a character, or the unit of an
escape with four digits, of which two may be needed for a character.
-/
inductive Piece where
  | char (c : Char)
  | unit (n : Nat)

def pieces? : List Char → Option (List Piece × List Char)
  | [] => none
  | '"' :: rest => some ([], rest)
  | '\\' :: 'u' :: a :: b :: c :: d :: rest => do
    let unit ← hexUnit? a b c d
    let (pieces, rest) ← pieces? rest
    return (.unit unit :: pieces, rest)
  | '\\' :: c :: rest => do
    let c ← shortEscape? c
    let (pieces, rest) ← pieces? rest
    return (.char c :: pieces, rest)
  | c :: rest => do
    if c.toNat < 32 then none
    let (pieces, rest) ← pieces? rest
    return (.char c :: pieces, rest)

/--
The text that the pieces of a literal denote. There is none if a unit is half of a surrogate pair
whose other half does not follow or precede it.
-/
def joinPieces? : List Piece → Option (List Char)
  | [] => some []
  | .char c :: rest => (c :: ·) <$> joinPieces? rest
  | .unit high :: .unit low :: rest =>
    if isHighSurrogate high then
      if isLowSurrogate low then
        (Char.ofNat (0x10000 + 1024 * (high - 0xd800) + (low - 0xdc00)) :: ·) <$> joinPieces? rest
      else none
    else if isLowSurrogate high then none
    else (Char.ofNat high :: ·) <$> joinPieces? (.unit low :: rest)
  | .unit n :: rest =>
    if isHighSurrogate n || isLowSurrogate n then none else (Char.ofNat n :: ·) <$> joinPieces? rest

/--
Read the rest of a string literal, up to its closing quote, and give the text that it denotes, if
it denotes one.
-/
def stringTail? (cs : List Char) : Option (Option String × List Char) :=
  (fun (pieces, rest) => ((joinPieces? pieces).map String.ofList, rest)) <$> pieces? cs

def digits? (cs : List Char) : Option (List Char × List Char) :=
  match cs.takeWhile Char.isDigit with
  | [] => none
  | digits => some (digits, cs.dropWhile Char.isDigit)

/--
Read the part of a numeral before the point. It starts with a zero only if it is a zero.
-/
def whole? : List Char → Option (List Char × List Char)
  | '0' :: rest => some (['0'], rest)
  | cs => digits? cs

def fraction? : List Char → Option (List Char × List Char)
  | '.' :: rest => digits? rest
  | cs => some ([], cs)

def signedExponent? : List Char → Option ((Bool × List Char) × List Char)
  | '-' :: rest => (fun (digits, rest) => ((true, digits), rest)) <$> digits? rest
  | '+' :: rest => (fun (digits, rest) => ((false, digits), rest)) <$> digits? rest
  | rest => (fun (digits, rest) => ((false, digits), rest)) <$> digits? rest

def exponent? : List Char → Option (Option (Bool × List Char) × List Char)
  | 'e' :: rest => (fun (exponent, rest) => (some exponent, rest)) <$> signedExponent? rest
  | 'E' :: rest => (fun (exponent, rest) => (some exponent, rest)) <$> signedExponent? rest
  | cs => some (none, cs)

def numeral? (cs : List Char) : Option (Numeral × List Char) := do
  let (negative, cs) := match cs with
    | '-' :: rest => (true, rest)
    | _ => (false, cs)
  let (whole, cs) ← whole? cs
  let (fraction, cs) ← fraction? cs
  let (exponent, cs) ← exponent? cs
  return ({ negative, whole, fraction, exponent }, cs)

mutual

/--
Read one value, after white space, and give the text behind it. The first argument bounds the
number of steps.
-/
def value? : Nat → List Char → Option (Json × List Char)
  | 0, _ => none
  | fuel + 1, cs =>
    match skipSpace cs with
    | 'n' :: 'u' :: 'l' :: 'l' :: rest => some (.null, rest)
    | 't' :: 'r' :: 'u' :: 'e' :: rest => some (.bool true, rest)
    | 'f' :: 'a' :: 'l' :: 's' :: 'e' :: rest => some (.bool false, rest)
    | '"' :: rest => (fun (s, rest) => (.string s, rest)) <$> stringTail? rest
    | '[' :: rest =>
      match skipSpace rest with
      | ']' :: rest => some (.array [], rest)
      | rest => (fun (elements, rest) => (.array elements, rest)) <$> elements? fuel rest
    | '\x7b' :: rest =>
      match skipSpace rest with
      | '\x7d' :: rest => some (.object [], rest)
      | rest => (fun (entries, rest) => (.object entries, rest)) <$> entries? fuel rest
    | cs => (fun (n, rest) => (.number n, rest)) <$> numeral? cs

def elements? : Nat → List Char → Option (List Json × List Char)
  | 0, _ => none
  | fuel + 1, cs => do
    let (v, cs) ← value? fuel cs
    match skipSpace cs with
    | ',' :: rest => (fun (vs, rest) => (v :: vs, rest)) <$> elements? fuel rest
    | ']' :: rest => some ([v], rest)
    | _ => none

def entries? : Nat → List Char → Option (List (Option String × Json) × List Char)
  | 0, _ => none
  | fuel + 1, cs =>
    match skipSpace cs with
    | '"' :: rest => do
      let (key, cs) ← stringTail? rest
      match skipSpace cs with
      | ':' :: rest =>
        let (v, cs) ← value? fuel rest
        let entry := (key, v)
        match skipSpace cs with
        | ',' :: rest => (fun (es, rest) => (entry :: es, rest)) <$> entries? fuel rest
        | '\x7d' :: rest => some ([entry], rest)
        | _ => none
      | _ => none
    | _ => none

end

/--
Read a JSON text: one value, with white space around it. Every step of the reader but the first
uses up a character or is the first at its character, so twice the length is enough.
-/
def ofChars? (cs : List Char) : Option Json :=
  match value? (2 * cs.length + 1) cs with
  | some (v, rest) => if (skipSpace rest).isEmpty then some v else none
  | none => none

def parse? (s : String) : Option Json :=
  ofChars? s.toList

end Json
end LuaClasses
