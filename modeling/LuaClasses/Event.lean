import LuaClasses.Guard
import LuaClasses.Index.Inheritance
import LuaClasses.Text.Quoted

/-!
This module contains the records that queries leave behind: the events, which tell what was decided
and why, and the look-ups, which tell what the index and its companions were asked.
-/

namespace LuaClasses

inductive Level where
  | trace
  | debug
  | warn
  deriving DecidableEq, Repr

def Level.name : Level → String
  | .trace => "trace"
  | .debug => "debug"
  | .warn => "warn"

inductive Event where
  | classRegistered (name : String)
  /-- A class was rebuilt from the name of a doc-table. -/
  | docTableIdentity (name file offset : String)
  /-- A class was looked up for the first time, and is not declared. -/
  | notDeclared (cls kind : String)
  /-- A class was looked up for the first time, and took over its declaration. -/
  | populated (cls kind : String) (superName : Option String)
  | aliasFound (cls : String)
  /-- A superclass was met again on the way up. -/
  | superclassCycle (start repeated : String)
  | lookupFailed (operation : String) (error : IndexError)
  /-- A structural comparison was not begun, because a bound was hit. -/
  | comparisonAbandoned (cls interface : String) (admission : Admission)
  | unnamedMember (interface : String)
  | missingMember (cls member : String)
  /-- A class has a member of an interface, at another type. -/
  | incompatibleMember (cls member provided required : String)
  deriving DecidableEq, Repr

namespace Event

def level : Event → Level
  | .superclassCycle .. => .debug
  | .comparisonAbandoned .. => .debug
  | .lookupFailed .. => .warn
  | _ => .trace

def message : Event → String
  | .classRegistered .. => "MemoryIndex::register_class"
  | .docTableIdentity .. => "create_serialized_class: doc-table identity"
  | .notDeclared .. => "lazy_init: no declaration"
  | .populated .. => "lazy_init: populated from index"
  | .aliasFound .. => "recover_alias: alias found"
  | .superclassCycle .. => "superclass cycle, stopping walk"
  | .lookupFailed .. => "index lookup failed, treating as absent"
  | .comparisonAbandoned .. => "structural check abandoned"
  | .unnamedMember .. => "unnamed interface member"
  | .missingMember .. => "missing interface member"
  | .incompatibleMember .. => "incompatible interface member"

def fields : Event → List (String × String)
  | .classRegistered name => [("class", name)]
  | .docTableIdentity name file offset => [("name", name), ("file", file), ("offset", offset)]
  | .notDeclared cls kind => [("class", cls), ("kind", kind)]
  | .populated cls kind superName =>
    [("class", cls), ("kind", kind), ("super_class", Text.quoteOption superName)]
  | .aliasFound cls => [("class", cls)]
  | .superclassCycle start repeated => [("start", start), ("repeated", repeated)]
  | .lookupFailed operation error =>
    [("op", operation), ("name", error.name), ("error", error.message)]
  | .comparisonAbandoned cls interface admission =>
    [("class", cls), ("interface", interface), ("result", admission.name)]
  | .unnamedMember interface => [("interface", interface)]
  | .missingMember cls member => [("class", cls), ("member", member)]
  | .incompatibleMember cls member provided required =>
    [("class", cls), ("member", member), ("provided", provided), ("required", required)]

end Event

inductive Lookup where
  | classDecl (name : String)
  | members (name : String)
  | member (owner name : String)
  | typeAlias (name : String)
  | inheritance (scope : Scope) (candidate base : String)
  | inference (owner : String) (name : Option String)
  deriving DecidableEq, Repr

def Lookup.operation : Lookup → String
  | .classDecl .. => "find_class"
  | .members .. => "get_class_members"
  | .member .. => "find_member"
  | .typeAlias .. => "find_alias"
  | .inheritance .. => "is_inherited_from"
  | .inference .. => "infer"

end LuaClasses
