import LuaClasses.Index
import LuaClasses.Pool

/-!
This module contains the search for declared inheritance, which decides about protected members. It
follows the declarations in the index, of which it needs no class value, and it may be confined to
those that stand in one file.
-/

namespace LuaClasses

inductive Scope where
  | project
  | file (name : String)
  deriving DecidableEq, Repr, Inhabited

namespace Index

/--
Whether the declaration of a class is followed. One of which no file is known is in no file.
-/
def inScope (i : Index) (scope : Scope) (name : String) : Bool :=
  match scope with
  | .project => true
  | .file file => i.files[name]? == some file

def namesInScope (i : Index) (scope : Scope) : List String :=
  i.classNames.filter (i.inScope scope)

def parentsOf (i : Index) (name : String) : List String :=
  match i.classes[name]? with
  | some header => header.parents
  | none => []

/--
Whether a declaration of one of the pending classes, or of a class that they extend, names `base` as
a parent. The pool holds the classes whose declarations have not been looked at.
-/
def reaches (i : Index) (base : String) (pool : Pool) (pending : List String) : Bool :=
  match _h : pool.pendingFrom id pending with
  | [] => false
  | name :: rest =>
    if (i.parentsOf name).contains base then true
    else reaches i base (pool.remove name) (i.parentsOf name ++ rest)
termination_by pool.length
decreasing_by exact Pool.length_remove_lt (Pool.mem_of_pendingFrom _h)

/--
Whether `candidate` is declared, through any number of declarations in the scope, to extend `base`.
-/
def inheritsFrom (i : Index) (scope : Scope) (candidate base : String) : Bool :=
  i.reaches base (i.namesInScope scope) [candidate]

end Index

end LuaClasses
