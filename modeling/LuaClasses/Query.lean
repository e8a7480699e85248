import LuaClasses.Class
import LuaClasses.Event
import LuaClasses.Ty

/-!
This module contains the state in which queries run: the cells of the classes that the index is
asked for, the guard of structural comparisons, and the records of what happened.
-/

namespace LuaClasses

/--
What the index has been asked for a class. It is asked once.
-/
inductive Cell where
  | uninitialized
  | initializing
  /-- The index was asked, and had this declaration, if any. -/
  | ready (found : Option Header)
  deriving DecidableEq, Repr, Inhabited

/--
How a class looked at the time of a look-up.
-/
structure Sighting where
  cell : Cell
  superName : Option String
  ancestors : List String
  deriving Repr

structure QueryState where
  /-- The cells that are not as they were made. -/
  cells : Std.TreeMap Nat Cell := ∅
  cellCount : Nat := 0
  /-- The guard of structural comparisons, each given by the names of its two classes. -/
  guard : Guard (String × String) := .new .standard
  events : Array Event := #[]
  lookups : Array (Lookup × Option Sighting) := #[]

abbrev Query := StateM QueryState

namespace Query

def note (e : Event) : Query Unit :=
  modify fun s => { s with events := s.events.push e }

def noteLookup (l : Lookup) (sighting : Option Sighting) : Query Unit :=
  modify fun s => { s with lookups := s.lookups.push (l, sighting) }

def newCell : Query Nat :=
  modifyGet fun s => (s.cellCount, { s with cellCount := s.cellCount + 1 })

def getCell (cell : Nat) : Query Cell := do
  return (← get).cells.getD cell .uninitialized

def setCell (cell : Nat) (value : Cell) : Query Unit :=
  modify fun s => { s with cells := s.cells.insert cell value }

def enter (key : String × String) : Query Admission :=
  modifyGet fun s => let (admission, guard) := s.guard.enter key; (admission, { s with guard })

def leave (key : String × String) : Query Unit :=
  modify fun s => { s with guard := s.guard.leave key }

end Query

def Index.register (i : Index) (d : ClassDecl) (file : Option String) : Query Index := do
  Query.note (.classRegistered d.name)
  match file with
  | some file => return i.declareIn d file
  | none => return i.declare d

namespace Class

def ofName (name : String) : Query Class := do
  return { name, varName := name, flags := .empty, origin := .lazy (← Query.newCell) }

/--
The class with these persisted fields. Without a variable name the class is shown by its name. The
name of a doc-table gives a reference to the doc-table, of which nothing else is kept.
-/
def ofFields (name : String) (varName superName aliasName : Option String) (flags : Flags) :
    Query Class := do
  let varName := varName.getD name
  match Identity.parseDocTable? name with
  | some (file, offset) =>
    Query.note (.docTableIdentity name file offset)
    return { name, varName, flags, origin := .docTableRef }
  | none =>
    return { name, varName, flags, origin := .serialized superName aliasName (← Query.newCell) }

def ofLocal (file : String) (offset : Nat) (name : String) : Query Class :=
  ofFields (Identity.anonymous file offset) (some name) none none .anonymous

/--
The cell of a class. A class that does not need the index counts as ready.
-/
def cell (c : Class) : Query Cell :=
  match c.origin.cell? with
  | some cell => Query.getCell cell
  | none => pure (.ready none)

def describe (c : Class) : Query String := do
  let state := match ← c.cell with
    | .uninitialized => "Uninitialized"
    | .initializing => "Initializing"
    | .ready _ => "Ready"
  return "ClassType \x7b class_name: " ++ Text.quote c.name ++ ", flags: " ++ c.flags.describe ++
    ", kind: " ++ Text.quote c.origin.kind ++ ", state: " ++ state ++ " \x7d"

def header (c : Class) : Query Header := do
  match ← c.cell with
  | .ready (some header) => return header
  | _ => return c.origin.header

end Class

namespace Ty

/--
The type with a class value of its own for each class name.
-/
def instantiate (t : Ty String) : Query (Ty Class) :=
  t.mapM Class.ofName

def text (t : Ty Class) : String :=
  t.display Class.displayName

/--
The type of the global variable `name`. A variable that is written has its own type; one that is
read may also have the class of its name, if the options say so.
-/
def ofGlobal (name : String) (store : Bool) (options : Options) : Query (Ty Class) := do
  let own ← Class.ofFields (Identity.globalType name) (some name) none none .global
  if store || !options.globalNamesAsTypes then
    return .cls own
  else
    let plain ← Class.ofFields name (some name) none none .global
    return unionOf [.cls own, .cls plain]

end Ty

end LuaClasses
