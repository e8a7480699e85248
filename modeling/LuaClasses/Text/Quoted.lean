import LuaClasses.Text.Numeral
import LuaClasses.Text.Unprintable

/-!
This module contains quoted text, the form in which log messages show names: between double quotes,
with escapes for the characters that cannot be shown as they are.
-/

namespace LuaClasses
namespace Text

def quoteChar (c : Char) : String :=
  match c with
  | '\t' => "\\t"
  | '\r' => "\\r"
  | '\n' => "\\n"
  | '"' => "\\\""
  | '\\' => "\\\\"
  | _ =>
    if c.toNat == 0 then "\\0"
    else if isUnprintable c then "\\u\x7b" ++ hexDigits c.toNat ++ "\x7d"
    else String.singleton c

def quote (s : String) : String :=
  "\"" ++ String.join (s.toList.map quoteChar) ++ "\""

def quoteOption : Option String → String
  | some s => "Some(" ++ quote s ++ ")"
  | none => "None"

end Text
end LuaClasses
