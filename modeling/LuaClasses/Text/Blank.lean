/-!
This module contains white space: the characters that may stand between the parts of a text, and
the removal of those at its ends.
-/

namespace LuaClasses
namespace Text

/--
Whether `c` is white space, by Unicode's property `White_Space`.
-/
def isBlank (c : Char) : Bool :=
  let n := c.toNat
  (9 ≤ n && n ≤ 13) || n == 0x20 || n == 0x85 || n == 0xa0 || n == 0x1680 ||
    (0x2000 ≤ n && n ≤ 0x200a) || n == 0x2028 || n == 0x2029 || n == 0x202f || n == 0x205f ||
    n == 0x3000

def skipBlank (cs : List Char) : List Char :=
  cs.dropWhile isBlank

def trim (cs : List Char) : List Char :=
  (skipBlank (skipBlank cs).reverse).reverse

end Text
end LuaClasses
