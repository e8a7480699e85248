import LuaClasses.Project
import Std.Data.TreeMap

/-!
This module contains the index of a project: tables from names to what is declared under them. A
look-up may fail instead of giving an answer, if the entry of the name cannot be used.
-/

namespace LuaClasses

inductive Fault where
  | unavailable
  | corrupt (reason : String)
  deriving DecidableEq, Repr

structure IndexError where
  name : String
  fault : Fault
  deriving DecidableEq, Repr

def IndexError.message (e : IndexError) : String :=
  match e.fault with
  | .unavailable => "index is unavailable while looking up '" ++ e.name ++ "'"
  | .corrupt reason => "index entry for '" ++ e.name ++ "' is corrupt: " ++ reason

structure Index where
  classes : Std.TreeMap String Header := ∅
  /-- The members declared under a name, in the order of their declarations. -/
  members : Std.TreeMap String (List Member) := ∅
  aliases : Std.TreeMap String TypeExpr := ∅
  /-- The file that a class was last declared in, among its declarations that have a file. -/
  files : Std.TreeMap String String := ∅
  faults : Std.TreeMap String Fault := ∅
  deriving Inhabited

namespace Index

/--
Record a class declaration, in place of an earlier one of the same name.
-/
def declare (i : Index) (d : ClassDecl) : Index :=
  { i with classes := i.classes.insert d.name d.header }

def declareIn (i : Index) (d : ClassDecl) (file : String) : Index :=
  { i.declare d with files := i.files.insert d.name file }

/--
Record a member under an owner, after the members that the owner already has.
-/
def addMember (i : Index) (owner : String) (m : Member) : Index :=
  { i with members := i.members.insert owner (i.members.getD owner [] ++ [m.withOwner owner]) }

def addMembers (i : Index) (owner : String) (ms : List Member) : Index :=
  ms.foldl (fun i m => i.addMember owner m) i

def addAlias (i : Index) (a : AliasDecl) : Index :=
  { i with aliases := i.aliases.insert a.name a.type }

def markFault (i : Index) (name : String) (fault : Fault) : Index :=
  { i with faults := i.faults.insert name fault }

def addEntry (i : Index) (e : ClassEntry) : Index :=
  let i := match e.file with
    | some file => i.declareIn e.decl file
    | none => i.declare e.decl
  i.addMembers e.decl.name e.members

def ofProject (p : Project) : Index :=
  let i := p.classes.foldl addEntry {}
  let i := p.members.foldl (fun i (owner, ms) => i.addMembers owner ms) i
  p.aliases.foldl addAlias i

def size (i : Index) : Nat :=
  i.classes.size

/--
The names of the declared classes, in increasing order.
-/
def classNames (i : Index) : List String :=
  i.classes.keys

def lookUp (i : Index) (name : String) (answer : α) : Except IndexError α :=
  match i.faults[name]? with
  | some fault => .error { name, fault }
  | none => .ok answer

def findClass (i : Index) (name : String) : Except IndexError (Option ClassDecl) :=
  i.lookUp name (i.classes[name]?.map fun header => { name, header })

def membersOf (i : Index) (name : String) : Except IndexError (List Member) :=
  i.lookUp name (i.members.getD name [])

def findMember (i : Index) (owner member : String) : Except IndexError (Option Member) :=
  i.lookUp owner ((i.members.getD owner []).find? (·.isNamed member))

def findAlias (i : Index) (name : String) : Except IndexError (Option AliasDecl) :=
  i.lookUp name (i.aliases[name]?.map fun type => { name, type })

end Index

end LuaClasses
