/-!
This module contains the reading of the words of a command line: options, which have a long name and
maybe a letter, positional words, and the word of a subcommand, at which the reading stops.

The value of an option is verified only when it is known to be complete, that is at the next option,
at the next positional word, or at the end.
-/

namespace LuaClasses
namespace CommandLine

inductive UsageError where
  | help
  | version
  | nothingGiven
  | missingSubcommand
  | missingArgument
  /-- An option has no value, or one that it does not take. -/
  | invalidValue
  | repeatedOption
  /-- An option has a value that takes none. -/
  | unneededValue
  | unknownSubcommand
  | unknownArgument
  deriving DecidableEq, Repr

inductive Arity where
  | help
  | version
  | switch
  /-- It may be given several times. -/
  | counter
  /-- It has a value, which passes a test. -/
  | value (accepts : String → Bool)

structure OptionSpec where
  long : String
  letter : Option Char := none
  arity : Arity

structure Layout where
  options : List OptionSpec
  positionals : Nat := 0
  subcommands : List String := []

structure Progress where
  /-- The switches and counters, as often as they were given. -/
  switches : List String := []
  values : List (String × String) := []
  positionals : List String := []
  /-- An option that still has to get its value, or whose value is not verified. -/
  pending : Option (OptionSpec × Option String) := none
  /-- Whether all words that follow are positional. -/
  literal : Bool := false

namespace Progress

def isEmpty (p : Progress) : Bool :=
  p.switches.isEmpty && p.values.isEmpty && p.positionals.isEmpty

def awaitsValue (p : Progress) : Bool :=
  match p.pending with
  | some (_, none) => true
  | _ => false

def value? (p : Progress) (long : String) : Option String :=
  p.values.lookup long

def has (p : Progress) (long : String) : Bool :=
  p.switches.contains long

def give (p : Progress) (long value : String) (accepts : String → Bool) :
    Except UsageError Progress :=
  if (p.value? long).isSome then .error .repeatedOption
  else if accepts value then .ok { p with values := p.values ++ [(long, value)] }
  else .error .invalidValue

/--
Verify the value of the pending option.
-/
def settle (p : Progress) : Except UsageError Progress :=
  match p.pending with
  | none => .ok p
  | some (_, none) => .error .invalidValue
  | some (o, some value) =>
    let p := { p with pending := none }
    match o.arity with
    | .value accepts => p.give o.long value accepts
    | _ => .ok p

/--
Take an option. The value is the one that stands in the same word, if any.
-/
def takeOption (p : Progress) (o : OptionSpec) (value : Option String) :
    Except UsageError Progress :=
  match o.arity, value with
  | .value accepts, some value => do (← p.settle).give o.long value accepts
  | .value _, none => do return { ← p.settle with pending := some (o, none) }
  | _, some _ => .error .unneededValue
  | .help, none => do
    let _ ← p.settle
    .error .help
  | .version, none => do
    let _ ← p.settle
    .error .version
  | .switch, none => do
    let p ← p.settle
    if p.has o.long then .error .repeatedOption
    else return { p with switches := p.switches ++ [o.long] }
  | .counter, none => do
    let p ← p.settle
    return { p with switches := p.switches ++ [o.long] }

/--
Take a word that starts with two dashes. Its value stands behind the first equals sign.
-/
def takeLong (p : Progress) (layout : Layout) (body : List Char) : Except UsageError Progress :=
  let long := String.ofList (body.takeWhile (· != '='))
  let value := match body.dropWhile (· != '=') with
    | [] => none
    | _ :: value => some (String.ofList value)
  match layout.options.find? (·.long == long) with
  | some o => p.takeOption o value
  | none => .error .unknownArgument

/--
Take the letters behind a single dash. The rest of the word is the value of the first letter that
takes one, less an equals sign in front.
-/
def takeLetters (p : Progress) (layout : Layout) : List Char → Except UsageError Progress
  | [] => .ok p
  | c :: rest =>
    match layout.options.find? (·.letter == some c) with
    | none => .error .unknownArgument
    | some o =>
      match o.arity with
      | .value _ =>
        let value := match rest with
          | [] => none
          | '=' :: value => some (String.ofList value)
          | value => some (String.ofList value)
        p.takeOption o value
      | _ => do takeLetters (← p.takeOption o none) layout rest

def takePositional (p : Progress) (layout : Layout) (word : String) : Except UsageError Progress :=
  if p.positionals.length < layout.positionals then do
    let p ← p.settle
    return { p with positionals := p.positionals ++ [word] }
  else if layout.subcommands.isEmpty || (p.literal && layout.subcommands.contains word) then
    .error .unknownArgument
  else
    .error .unknownSubcommand

def takeWord (p : Progress) (layout : Layout) (word : String) : Except UsageError Progress :=
  if p.literal then p.takePositional layout word
  else match word.toList with
    | ['-', '-'] => .ok { p with literal := true }
    | '-' :: '-' :: body => p.takeLong layout body
    | '-' :: c :: letters => p.takeLetters layout (c :: letters)
    | _ =>
      match p.pending with
      | some (o, none) => .ok { p with pending := some (o, some word) }
      | _ => p.takePositional layout word

end Progress

/--
Read the words up to the first one that names a subcommand, and give that one with those behind it.
-/
def readWords (layout : Layout) (p : Progress) :
    List String → Except UsageError (Progress × Option (String × List String))
  | [] => .ok (p, none)
  | word :: rest =>
    if !p.literal && !p.awaitsValue && layout.subcommands.contains word then
      .ok (p, some (word, rest))
    else do
      readWords layout (← p.takeWord layout word) rest

end CommandLine
end LuaClasses
