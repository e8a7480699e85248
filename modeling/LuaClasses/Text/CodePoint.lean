/-!
This module contains what is asked of characters by their number: whether it is in a table, and how
many bytes it takes.
-/

namespace LuaClasses
namespace Text

/--
Whether the code point of `c` lies in one of the closed ranges of a table.
-/
def inRanges (ranges : List (Nat × Nat)) (c : Char) : Bool :=
  ranges.any fun (first, last) => first ≤ c.toNat && c.toNat ≤ last

def byteLength (cs : List Char) : Nat :=
  cs.foldr (fun c length => c.utf8Size + length) 0

end Text
end LuaClasses
