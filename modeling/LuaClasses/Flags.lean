import LuaClasses.Text.Numeral

/-!
This module contains the flags of a class. They are part of its identity: two classes of the same
name with different flags are different types.
-/

namespace LuaClasses

/--
A set of flags, as a word of 32 bits. Bits without a meaning are kept.
-/
structure Flags where
  bits : UInt32
  deriving DecidableEq, Repr, Inhabited

namespace Flags

def empty : Flags := ⟨0⟩

/--
The class is named after a place in the source.
-/
def anonymous : Flags := ⟨1⟩

def global : Flags := ⟨2⟩

def anonymousTable : Flags := ⟨4⟩

def union (a b : Flags) : Flags := ⟨a.bits ||| b.bits⟩

def contains (flags part : Flags) : Bool :=
  flags.bits &&& part.bits == part.bits

def known : List (String × Flags) :=
  [("ANONYMOUS", anonymous), ("GLOBAL", global), ("ANONYMOUS_TABLE", anonymousTable)]

def names (flags : Flags) : List String :=
  (known.filter fun (_, flag) => flags.contains flag).map (·.1)

def unknownBits (flags : Flags) : UInt32 :=
  flags.bits &&& ~~~7

def describe (flags : Flags) : String :=
  let unknown := if flags.unknownBits == 0 then [] else [Text.hexNumber flags.unknownBits.toNat]
  let parts := flags.names ++ unknown
  "ClassFlags(" ++ (if parts.isEmpty then "0x0" else " | ".intercalate parts) ++ ")"

end Flags

end LuaClasses
