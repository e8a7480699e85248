import LuaClasses.Text.Blank
import LuaClasses.Text.Numeral

/-!
This module contains the settings of the log: its format, and which events it takes.
-/

namespace LuaClasses
namespace Log

inductive Format where
  | text
  /-- Indented by nesting. -/
  | tree
  | json
  deriving DecidableEq, Repr, Inhabited

def Format.name : Format → String
  | .text => "text"
  | .tree => "tree"
  | .json => "json"

def Format.all : List Format :=
  [.text, .tree, .json]

def Format.ofName? (name : String) (ignoreCase : Bool) : Option Format :=
  let name := if ignoreCase then String.ofList (Text.lowerCase name.toList) else name
  all.find? (·.name == name)

/--
Whether a text is a level by itself: its word, in any case, or its number.
-/
def isLevel (spec : List Char) : Bool :=
  match Text.readNat? spec with
  | some n => n ≤ 5
  | none =>
    ["off", "error", "warn", "info", "debug", "trace"].contains
      (String.ofList (Text.lowerCase spec))

def forProgram (level : String) : String :=
  "lty_solver=" ++ level ++ ",lty_cli=" ++ level

/--
The directives of a log, from a setting and from the number of times that more detail was asked for.
A setting that is a level by itself is meant for this program; any other one is taken as it is. An
empty one does not count.
-/
def directives (setting : Option String) (verbosity : Nat) : Option String :=
  match Text.trim ((setting.getD "").toList) with
  | [] => match verbosity with
    | 0 => none
    | 1 => some (forProgram "debug")
    | _ => some (forProgram "trace")
  | spec =>
    let text := String.ofList spec
    some (if isLevel spec then forProgram text else text)

end Log
end LuaClasses
