import LuaClasses.CommandLine
import LuaClasses.Report
import LuaClasses.Subtyping
import LuaClasses.Text.Hexadecimal
import LuaClasses.TypeExpr.Parser

/-!
This module contains what the commands do: each asks one question about a project, and the answer
becomes a report.
-/

namespace LuaClasses

inductive Failure where
  /-- The project description cannot be read as a text. -/
  | unreadable (path : String)
  /-- The project description does not describe a project. -/
  | malformed (path : String)
  | undeclared (name : String)
  | type (text : String) (error : TypeExpr.ParseError)
  | hex (error : Hex.Error)
  | unencodable (error : Stub.Error)
  | undecodable (error : Stub.Error)
  deriving DecidableEq, Repr

namespace Failure

/--
Whether the project description is at fault.
-/
def isLoad : Failure → Bool
  | .unreadable _ => true
  | .malformed _ => true
  | _ => false

def message : Failure → String
  | .unreadable path => "failed to read project index " ++ path
  | .malformed path => "failed to parse project index " ++ path
  | .undeclared name => "class '" ++ name ++ "' is not declared in the project index"
  | .type text error => error.message text
  | .hex error => error.message
  | .unencodable error => "failed to encode class stub: " ++ error.message
  | .undecodable error => "invalid class stub: " ++ error.message

end Failure

/--
The key that a text stands for: a number, if it starts like one and is one.
-/
def Key.ofText (text : String) : Key :=
  match text.toList with
  | [] => .string text
  | c :: rest =>
    if (c.isDigit || c == '-') && Text.isReal (c :: rest) then .number text else .string text

abbrev Attempt := ExceptT Failure Query

namespace Context

def require (ctx : Context) (name : String) : Attempt Class := do
  match ← ctx.resolve name with
  | some c => return c
  | none => throw (.undeclared name)

def typeOfText (text : String) : Attempt (Ty Class) :=
  match TypeExpr.parse text with
  | .ok e => (Ty.ofExpr e).instantiate
  | .error error => throw (.type text error)

def memberRows (ctx : Context) : List (Class × Member) → Query (List MemberRow)
  | [] => return []
  | (c, m) :: rest => do
    let type ← ctx.infer m
    let rows ← ctx.memberRows rest
    return { owner := c.name, name := m.name.getD "<unnamed>", type := type.text } :: rows

def run (ctx : Context) : Command → Attempt Report
  | .classes => return .classes ctx.index.classNames
  | .supers cls => do
    let c ← ctx.require cls
    return .classes ((← ctx.ancestors c).map Class.name)
  | .interfaces cls => do
    let c ← ctx.require cls
    return .classes ((← ctx.allInterfaces c).map Class.name)
  | .members cls deep visibleFrom => do
    let c ← ctx.require cls
    match visibleFrom with
    | some viewer =>
      let viewer ← ctx.require viewer
      return .members (← ctx.memberRows (← ctx.visibleMembers c viewer))
    | none => return .members (← ctx.memberRows (← ctx.members c deep))
  | .member cls name => do
    let c ← ctx.require cls
    match ← ctx.findMemberOf c name with
    | some m => return .result (some (← ctx.infer m).text)
    | none => return .result none
  | .index cls key => do
    let c ← ctx.require cls
    return .result ((← ctx.keyType c (.ofText key)).map Ty.text)
  | .subtype source target strict => do
    let source ← typeOfText source
    let target ← typeOfText target
    return .verdict (← ctx.isSubtype source target strict)
  | .typeAlias cls => do
    let c ← ctx.require cls
    let names ← ctx.alternateNames c
    return .otherNames names (← ctx.recoverAlias c id).text
  | .global name store => do
    let type ← Ty.ofGlobal name store ctx.options
    return .classes (type.parts.filterMap (·.class?.map Class.name))
  | .encode cls => do
    let c ← ctx.require cls
    match ← Stub.encode c with
    | .ok bytes => return .encoded (Hex.encode bytes) (← Stub.ofClass c)
    | .error error => throw (.unencodable error)
  | .decode hex =>
    match Hex.decode hex with
    | .error error => throw (.hex error)
    | .ok bytes =>
      match Stub.decode bytes with
      | .error error => throw (.undecodable error)
      | .ok c => do return .encoded (Hex.encode bytes) (← Stub.ofClass (← c))

end Context

namespace Invocation

/--
The context in which the command runs. The command line overrides the options of the project.
-/
def context (inv : Invocation) (p : Project) : Context where
  index := .ofProject p
  options := { globalNamesAsTypes := p.options.globalNamesAsTypes && !inv.noGlobalNamesAsTypes }
  scope := match inv.scopeFile with
    | some file => .file file
    | none => .project

/--
The output of a command line, given the bytes of the project description, if there are any.
-/
def respond (inv : Invocation) (content : Option ByteArray) (terminal : Bool) :
    Except Failure String := do
  match content.bind String.fromUTF8? with
  | none => throw (.unreadable inv.project)
  | some text =>
    match Project.parse? text with
    | none => throw (.malformed inv.project)
    | some p =>
      let (report, _) := (((inv.context p).run inv.command).run).run {}
      return (← report).render inv.json (terminal && !inv.noColor && !inv.json)

end Invocation

end LuaClasses
