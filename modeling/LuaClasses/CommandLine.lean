import LuaClasses.CommandLine.Words
import LuaClasses.Log

/-!
This module contains the command line of the program: the commands with their arguments, and the
options that stand before them.
-/

namespace LuaClasses

inductive Command where
  | classes
  | supers (cls : String)
  | interfaces (cls : String)
  /-- The members of a class, maybe with those of its ancestors, or only those that another class
  may use. -/
  | members (cls : String) (deep : Bool) (visibleFrom : Option String)
  /-- The type of a member. -/
  | member (cls name : String)
  /-- The type of an access by a key. -/
  | index (cls key : String)
  | subtype (source target : String) (strict : Bool)
  /-- The other names of a class, and what its name is an alias of. -/
  | typeAlias (cls : String)
  | global (name : String) (store : Bool)
  | encode (cls : String)
  | decode (hex : String)
  deriving DecidableEq, Repr

structure Invocation where
  project : String
  noGlobalNamesAsTypes : Bool
  scopeFile : Option String
  json : Bool
  noColor : Bool
  verbosity : Nat
  logFormat : Option Log.Format
  command : Command
  deriving DecidableEq, Repr

namespace CommandLine

def UsageError.message : UsageError → String
  | .help => "help was asked for"
  | .version => "the version was asked for"
  | .nothingGiven => "no arguments were given"
  | .missingSubcommand => "a subcommand is required"
  | .missingArgument => "a required argument was not given"
  | .invalidValue => "an option lacks a value, or has one that it does not take"
  | .repeatedOption => "an option was given twice"
  | .unneededValue => "an option has a value that takes none"
  | .unknownSubcommand => "there is no such subcommand"
  | .unknownArgument => "there is no such argument"

def version : String := "0.1.0"

def helpOption : OptionSpec :=
  { long := "help", letter := some 'h', arity := .help }

def switch (long : String) : OptionSpec :=
  { long, arity := .switch }

/--
The words of the subcommands, with the number of positional words and the options of each.
-/
def subcommands : List (String × Layout) :=
  [("classes", { options := [helpOption] }),
    ("supers", { options := [helpOption], positionals := 1 }),
    ("interfaces", { options := [helpOption], positionals := 1 }),
    ("members", {
      options :=
        [helpOption, switch "deep", { long := "visible-from", arity := .value fun _ => true }]
      positionals := 1 }),
    ("member", { options := [helpOption], positionals := 2 }),
    ("index", { options := [helpOption], positionals := 2 }),
    ("subtype", { options := [helpOption, switch "strict"], positionals := 2 }),
    ("alias", { options := [helpOption], positionals := 1 }),
    ("global", { options := [helpOption, switch "store"], positionals := 1 }),
    ("encode", { options := [helpOption], positionals := 1 }),
    ("decode", { options := [helpOption], positionals := 1 })]

def layout : Layout where
  options :=
    [helpOption, { long := "version", letter := some 'V', arity := .version },
      { long := "project", letter := some 'p', arity := .value fun path => path != "" },
      switch "no-global-name-as-type", { long := "scope-file", arity := .value fun _ => true },
      switch "json", switch "no-color",
      { long := "verbose", letter := some 'v', arity := .counter },
      { long := "log-format", arity := .value fun name => (Log.Format.ofName? name false).isSome }]
  subcommands := "help" :: subcommands.map (·.1)

def usage : String :=
  "usage: -p FILE [OPTIONS] COMMAND\n" ++
    "options: " ++ ", ".intercalate (layout.options.map fun o => "--" ++ o.long) ++ "\n" ++
    "commands: " ++ ", ".intercalate layout.subcommands

/--
The words behind `help`: they may name one subcommand, or `help` itself.
-/
def helpError : List String → UsageError
  | [] => .help
  | [word] => if layout.subcommands.contains word then .help else .unknownSubcommand
  | _ => .unknownSubcommand

/--
The command of a subcommand's word and its arguments. There is none if a positional word is missing.
-/
def command? (word : String) (p : Progress) : Option Command :=
  match word, p.positionals with
  | "classes", [] => some .classes
  | "supers", [cls] => some (.supers cls)
  | "interfaces", [cls] => some (.interfaces cls)
  | "members", [cls] => some (.members cls (p.has "deep") (p.value? "visible-from"))
  | "member", [cls, name] => some (.member cls name)
  | "index", [cls, key] => some (.index cls key)
  | "subtype", [source, target] => some (.subtype source target (p.has "strict"))
  | "alias", [cls] => some (.typeAlias cls)
  | "global", [name] => some (.global name (p.has "store"))
  | "encode", [cls] => some (.encode cls)
  | "decode", [hex] => some (.decode hex)
  | _, _ => none

def readCommand (word : String) (words : List String) : Except UsageError Command :=
  if word = "help" then .error (helpError words)
  else do
    let layout := (subcommands.lookup word).getD { options := [] }
    let (p, _) ← readWords layout {} words
    let p ← p.settle
    match command? word p with
    | some command => return command
    | none => .error .missingArgument

def maxVerbosity : Nat := 255

/--
Read a command line, without the name of the program. What stands behind the word of the subcommand
is verified before what is still open of the options in front of it.
-/
def parse (words : List String) : Except UsageError Invocation := do
  let (p, subcommand) ← readWords layout {} words
  match subcommand with
  | none =>
    let p ← p.settle
    .error (if p.isEmpty then .nothingGiven else .missingSubcommand)
  | some (word, rest) =>
    let command ← readCommand word rest
    let p ← p.settle
    match p.value? "project" with
    | none => .error .missingArgument
    | some project =>
      return {
        project
        noGlobalNamesAsTypes := p.has "no-global-name-as-type"
        scopeFile := p.value? "scope-file"
        json := p.has "json"
        noColor := p.has "no-color"
        verbosity := min (p.switches.count "verbose") maxVerbosity
        logFormat := (p.value? "log-format").bind (Log.Format.ofName? · false)
        command }

end CommandLine

end LuaClasses
