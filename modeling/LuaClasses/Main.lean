import LuaClasses.Command

/-!
This module contains the program: it reads the command line and the project description, and prints
the answer.
-/

namespace LuaClasses

def readFile? (path : String) : IO (Option ByteArray) := do
  try
    return some (← IO.FS.readBinFile path)
  catch _ =>
    return none

def execute (words : List String) : IO UInt32 := do
  match CommandLine.parse words with
  | .error .help =>
    IO.println CommandLine.usage
    return 0
  | .error .version =>
    IO.println CommandLine.version
    return 0
  | .error e =>
    IO.eprintln ("error: " ++ e.message)
    IO.eprintln CommandLine.usage
    return 2
  | .ok inv =>
    let content ← readFile? inv.project
    match inv.respond content (← (← IO.getStdout).isTty) with
    | .ok out =>
      IO.print out
      return 0
    | .error e =>
      IO.eprintln ("Error: " ++ e.message)
      return 1

end LuaClasses

def main (words : List String) : IO UInt32 :=
  LuaClasses.execute words
