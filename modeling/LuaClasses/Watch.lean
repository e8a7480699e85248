import LuaClasses.Ancestry

/-!
This module contains contexts that record the look-ups made through them. Such a context may watch a
class: with each look-up of a declaration it records how the class looks before the answer is given.
-/

namespace LuaClasses

/--
How a class looks at this moment. Its ancestors are those in `index`; to find them may initialize
the class.
-/
def Class.sight (c : Class) (index : Index) (options : Options) : Query Sighting := do
  let cell ← c.cell
  let ancestors ← Context.ancestors { index, options } c
  return { cell, superName := (← c.header).superName, ancestors := ancestors.map Class.name }

/--
A context that records every look-up, and watches a class as it is in `index`.
-/
def Context.recording (ctx : Context) (index : Index) (watched : Option Class) : Context :=
  { ctx with
    observe := fun l => do
      match l, watched with
      | .classDecl _, some c => Query.noteLookup l (some (← c.sight index ctx.options))
      | _, _ => Query.noteLookup l none }

end LuaClasses
