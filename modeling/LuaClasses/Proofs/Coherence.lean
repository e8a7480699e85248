import LuaClasses.Proofs.Types

/-!
This module contains the states in which queries run, as far as they matter for the answers. A cell
is either as it was made or holds what the index has to say about its class. In such a state a query
has one answer, whatever was asked before.
-/

namespace LuaClasses

/--
The names of the classes that cells were made for, in the order in which the cells were made.
-/
abbrev World := List String

/--
A context whose observer does nothing.
-/
class Context.Quiet (ctx : Context) : Prop where
  observe_eq : ∀ l, ctx.observe l = pure ()

instance (index : Index) (options : Options) (scope : Scope)
    : Context.Quiet { index, options, scope } where
  observe_eq _ := rfl

namespace Context

/--
What the index answers about the declaration of a name. A failure counts as no answer.
-/
def declaration? (ctx : Context) (name : String) : Option Header :=
  match ctx.index.findClass name with
  | .ok (some d) => some d.header
  | _ => none

/--
What is known of a class once the index has been asked.
-/
def knownHeader (ctx : Context) (c : Class) : Header :=
  if c.origin.cell?.isSome then (ctx.declaration? c.name).getD c.origin.header
  else c.origin.header

def declared? (ctx : Context) (name : String) : Option Class :=
  (ctx.declaration? name).map fun header => Class.ofDecl { name, header }

def membersAt (ctx : Context) (name : String) : List Member :=
  (ctx.index.membersOf name).toOption.getD []

/--
The first member of a name among those declared under `owner`. A failure counts as none.
-/
def memberAt? (ctx : Context) (owner name : String) : Option Member :=
  (ctx.index.findMember owner name).toOption.getD none

def aliasAt? (ctx : Context) (name : String) : Option AliasDecl :=
  (ctx.index.findAlias name).toOption.getD none

theorem knownHeader_of_cell?_eq_none {ctx : Context} {c : Class} (h : c.origin.cell? = none)
    : ctx.knownHeader c = c.origin.header := by
  simp [knownHeader, h]

@[simp]
theorem knownHeader_erase (ctx : Context) (c : Class)
    : ctx.knownHeader c.erase = ctx.knownHeader c := by
  simp [knownHeader]

/--
Class values of one identity, of which the same is known once the index has been asked. All facts
about a class are the same for both.
-/
structure Alike (ctx : Context) (c d : Class) : Prop extends c.Similar d where
  knownHeader_eq : ctx.knownHeader c = ctx.knownHeader d

namespace Alike

variable {ctx : Context} {c d e : Class}

theorem refl (c : Class) : ctx.Alike c c :=
  ⟨.refl c, rfl⟩

theorem symm (h : ctx.Alike c d) : ctx.Alike d c :=
  ⟨h.toSimilar.symm, h.knownHeader_eq.symm⟩

theorem trans (h : ctx.Alike c d) (h' : ctx.Alike d e) : ctx.Alike c e :=
  ⟨h.toSimilar.trans h'.toSimilar, h.knownHeader_eq.trans h'.knownHeader_eq⟩

end Alike

theorem paired_alike (ctx : Context) (t : Ty Class) : t.Paired ctx.Alike t :=
  Ty.paired_self fun c _ => .refl c

theorem alike_erase (ctx : Context) (c : Class) : ctx.Alike c.erase c :=
  ⟨c.similar_erase.symm, ctx.knownHeader_erase c⟩

theorem cell?_eq_none_of_declared? {ctx : Context} {name : String} {c : Class}
    (h : c ∈ ctx.declared? name)
    : c.origin.cell? = none := by
  rcases Option.map_eq_some_iff.1 h with ⟨header, _, rfl⟩
  rfl

end Context

def QueryState.cell (s : QueryState) (n : Nat) : Cell :=
  s.cells.getD n .uninitialized

/--
Whether the index has been asked for a class, or need not be.
-/
def QueryState.Settled (s : QueryState) (c : Class) : Prop :=
  ∀ n, c.origin.cell? = some n → s.cell n ≠ .uninitialized

/--
A state in which each cell of the world is as it was made or holds the declaration of its class, and
no other cell has been used.
-/
structure QueryState.Coherent (ctx : Context) (w : World) (s : QueryState) : Prop where
  cellCount_eq : s.cellCount = w.length
  cell_eq : ∀ n name, w[n]? = some name →
    s.cell n = .uninitialized ∨ s.cell n = .ready (ctx.declaration? name)
  cell_eq_of_le : ∀ n, w.length ≤ n → s.cell n = .uninitialized

/--
Whether the cell of a class was made for it.
-/
def Class.Known (w : World) (c : Class) : Prop :=
  ∀ n, c.origin.cell? = some n → w[n]? = some c.name

theorem Class.known_of_cell?_eq_none {w : World} {c : Class} (h : c.origin.cell? = none)
    : c.Known w := by
  simp [Known, h]

theorem Class.known_of_cell?_eq_some {w : World} {c : Class} {n : Nat}
    (hcell : c.origin.cell? = some n) (hn : w[n]? = some c.name)
    : c.Known w := by
  intro k hk
  rw [hcell] at hk
  cases hk
  exact hn

theorem World.getElem?_of_prefix {w w' : World} {n : Nat} {name : String} (hw : w <+: w')
    (h : w[n]? = some name)
    : w'[n]? = some name := by
  rcases hw with ⟨rest, rfl⟩
  rw [List.getElem?_append_left (List.getElem?_eq_some_iff.1 h).1, h]

theorem Class.Known.mono {w w' : World} {c : Class} (h : c.Known w) (hw : w <+: w')
    : c.Known w' :=
  fun n hn => World.getElem?_of_prefix hw (h n hn)

namespace QueryState.Coherent

variable {ctx : Context} {w : World} {s s' : QueryState}

theorem of_eq (h : s.Coherent ctx w) (hcell : ∀ n, s'.cell n = s.cell n)
    (hcount : s'.cellCount = s.cellCount)
    : s'.Coherent ctx w := by
  constructor
  . rw [hcount, h.cellCount_eq]
  . simpa only [hcell] using h.cell_eq
  . simpa only [hcell] using h.cell_eq_of_le

theorem insert {n : Nat} {name : String} (h : s.Coherent ctx w) (hn : w[n]? = some name)
    (hcell : ∀ k, s'.cell k = if n = k then .ready (ctx.declaration? name) else s.cell k)
    (hcount : s'.cellCount = s.cellCount)
    : s'.Coherent ctx w := by
  constructor
  . rw [hcount, h.cellCount_eq]
  . intro k other hk
    rw [hcell]
    split
    . next heq =>
      subst heq
      rw [hn] at hk
      cases hk
      exact .inr rfl
    . exact h.cell_eq k other hk
  . intro k hk
    rw [hcell]
    split
    . next heq =>
      subst heq
      rw [List.getElem?_eq_none hk] at hn
      cases hn
    . exact h.cell_eq_of_le k hk

end QueryState.Coherent

/--
The state before any query.
-/
def QueryState.fresh (limits : Limits) : QueryState :=
  { guard := .new limits }

theorem QueryState.fresh_coherent (ctx : Context) (limits : Limits)
    : (fresh limits).Coherent ctx [] := by
  constructor
  . rfl
  . intro n name h
    cases h
  . intro n _
    simp [cell, fresh]

namespace Query

variable {ctx : Context} {w : World}

theorem run_bind (q : Query α) (f : α → Query β) (s : QueryState)
    : (q >>= f).run s = (f (q.run s).1).run (q.run s).2 :=
  rfl

theorem cell_setCell (n : Nat) (value : Cell) (s : QueryState) (k : Nat)
    : ((setCell n value).run s).2.cell k = if n = k then value else s.cell k := by
  have hcells : ((setCell n value).run s).2.cells = s.cells.insert n value := rfl
  simp only [QueryState.cell, hcells, Std.TreeMap.getD_insert, Nat.compare_eq_eq]

/--
In every coherent state, the query answers `a`. It makes no cell and leaves the guard as it is.
-/
def Answers (ctx : Context) (w : World) (q : Query α) (a : α) : Prop :=
  ∀ s, s.Coherent ctx w →
    (q.run s).1 = a ∧ (q.run s).2.Coherent ctx w ∧ (q.run s).2.guard = s.guard

namespace Answers

theorem pure (a : α) : Answers ctx w (Pure.pure a) a :=
  fun _ h => ⟨rfl, h, rfl⟩

theorem bind {q : Query α} {f : α → Query β} {a : α} {b : β} (hq : Answers ctx w q a)
    (hf : Answers ctx w (f a) b)
    : Answers ctx w (q >>= f) b := by
  intro s hs
  rcases hq s hs with ⟨ha, hs', hguard⟩
  rw [run_bind, ha]
  rcases hf _ hs' with ⟨hb, hs'', hguard'⟩
  exact ⟨hb, hs'', hguard'.trans hguard⟩

end Answers

end Query

theorem Class.header_run (c : Class) (s : QueryState) : (c.header.run s).2 = s := by
  unfold header cell
  cases c.origin.cell? with
  | none => rfl
  | some n =>
    rw [Query.run_bind]
    cases ((Query.getCell n).run s).1 with
    | uninitialized | initializing => rfl
    | ready found => cases found <;> rfl

theorem Class.header_congr {c : Class} {s s' : QueryState}
    (h : (c.cell.run s').1 = (c.cell.run s).1)
    : (c.header.run s').1 = (c.header.run s).1 := by
  unfold header
  rw [Query.run_bind, Query.run_bind, h]
  cases (c.cell.run s).1 with
  | uninitialized | initializing => rfl
  | ready found => cases found <;> rfl

namespace Context

open Query

variable {ctx : Context} [ctx.Quiet] {w : World}

theorem ask_run (l : Lookup) (absent : α) (answer : Except IndexError α) (s : QueryState)
    : ((ctx.ask l absent answer).run s).1 = answer.toOption.getD absent ∧
      ((ctx.ask l absent answer).run s).2.cells = s.cells ∧
      ((ctx.ask l absent answer).run s).2.cellCount = s.cellCount ∧
      ((ctx.ask l absent answer).run s).2.guard = s.guard := by
  unfold ask
  rw [Quiet.observe_eq]
  cases answer with
  | ok a => exact ⟨rfl, rfl, rfl, rfl⟩
  | error e => exact ⟨rfl, rfl, rfl, rfl⟩

omit [ctx.Quiet] in
theorem findClass_eq (name : String)
    : (ctx.index.findClass name).toOption.getD none
        =
      (ctx.declaration? name).map fun header => { name, header } := by
  unfold declaration? Index.findClass Index.lookUp
  cases ctx.index.faults[name]? with
  | some fault => rfl
  | none => cases ctx.index.classes[name]? <;> rfl

theorem settle_run_of_uninitialized {c : Class} {n : Nat} {s : QueryState}
    (hcell : c.origin.cell? = some n) (hs : s.cell n = .uninitialized)
    : (∀ k, ((ctx.settle c).run s).2.cell k
        = if n = k then .ready (ctx.declaration? c.name) else s.cell k) ∧
      ((ctx.settle c).run s).2.cellCount = s.cellCount ∧
      ((ctx.settle c).run s).2.guard = s.guard := by
  have hget : (Query.getCell n).run s = (.uninitialized, s) := by
    rw [← hs]
    rfl
  have hset := Query.cell_setCell n .initializing s
  unfold settle
  rw [hcell]
  simp only [Query.run_bind, hget, if_true]
  -- The look-up leaves the cells alone, so only the two writes to the cell of `c` matter.
  rcases ctx.ask_run (.classDecl c.name) none (ctx.index.findClass c.name)
    ((Query.setCell n .initializing).run s).2 with ⟨hfound, hcells, hcount, hguard⟩
  rw [findClass_eq] at hfound
  change ((ctx.findClass c.name).run _).1 = _ at hfound
  change ((ctx.findClass c.name).run _).2.cells = _ at hcells
  change ((ctx.findClass c.name).run _).2.cellCount = _ at hcount
  change ((ctx.findClass c.name).run _).2.guard = _ at hguard
  rw [hfound]
  generalize ((ctx.findClass c.name).run ((Query.setCell n .initializing).run s).2).2 = t at *
  have ht : ∀ k, n ≠ k → t.cell k = s.cell k := by
    intro k hk
    have := hset k
    rw [if_neg hk] at this
    rw [← this]
    simp only [QueryState.cell, hcells]
  cases ctx.declaration? c.name with
  | none =>
    refine ⟨?_, hcount, hguard⟩
    intro k
    rw [Option.map_none, Query.run_bind, Query.cell_setCell]
    split
    . rfl
    . next hk => exact ht k hk
  | some header =>
    refine ⟨?_, hcount, hguard⟩
    intro k
    rw [Option.map_some, Query.run_bind, Query.cell_setCell]
    split
    . rfl
    . next hk => exact ht k hk

omit [ctx.Quiet] in
theorem settle_run_of_ne {c : Class} {n : Nat} {s : QueryState} (hcell : c.origin.cell? = some n)
    (hs : s.cell n ≠ .uninitialized)
    : (ctx.settle c).run s = ((), s) := by
  have hget : (Query.getCell n).run s = (s.cell n, s) := rfl
  unfold settle
  rw [hcell]
  simp only [Query.run_bind, hget, if_neg hs]
  rfl

omit [ctx.Quiet] in
theorem settle_run_of_settled {c : Class} {s : QueryState} (h : s.Settled c)
    : (ctx.settle c).run s = ((), s) := by
  cases hcell : c.origin.cell? with
  | none =>
    unfold settle
    rw [hcell]
    rfl
  | some n => exact settle_run_of_ne hcell (h n hcell)

theorem settled_settle (c : Class) (s : QueryState) : ((ctx.settle c).run s).2.Settled c := by
  intro n hcell
  by_cases hun : s.cell n = .uninitialized
  . rw [(settle_run_of_uninitialized hcell hun).1, if_pos rfl]
    exact nofun
  . rw [settle_run_of_ne hcell hun]
    exact hun

theorem settle_guard (c : Class) (s : QueryState)
    : ((ctx.settle c).run s).2.guard = s.guard := by
  by_cases hsettled : s.Settled c
  . rw [settle_run_of_settled hsettled]
  . rcases Classical.not_forall.1 hsettled with ⟨n, hn⟩
    rcases Classical.not_imp.1 hn with ⟨hcell, hun⟩
    exact (settle_run_of_uninitialized hcell (Classical.not_not.1 hun)).2.2

/--
After a class has been settled, its cell holds what the index answers.
-/
theorem settle_run {c : Class} (hc : c.Known w) {s : QueryState} (hs : s.Coherent ctx w)
    : ((ctx.settle c).run s).2.Coherent ctx w ∧
      ((ctx.settle c).run s).2.guard = s.guard ∧
      ∀ n, c.origin.cell? = some n →
        ((ctx.settle c).run s).2.cell n = .ready (ctx.declaration? c.name) := by
  cases hcell : c.origin.cell? with
  | none =>
    unfold settle
    rw [hcell]
    refine ⟨hs, rfl, ?_⟩
    intro n hn
    cases hn
  | some n =>
    have hname := hc n hcell
    rcases hs.cell_eq n _ hname with hun | hready
    . rcases ctx.settle_run_of_uninitialized hcell hun with ⟨hcells, hcount, hguard⟩
      refine ⟨hs.insert hname hcells hcount, hguard, ?_⟩
      intro k hk
      cases hk
      rw [hcells, if_pos rfl]
    . have hne : s.cell n ≠ .uninitialized := by
        rw [hready]
        exact nofun
      rw [settle_run_of_ne hcell hne]
      refine ⟨hs, rfl, ?_⟩
      intro k hk
      cases hk
      exact hready

theorem settle_answers {c : Class} (hc : c.Known w) : Answers ctx w (ctx.settle c) () := by
  intro s hs
  rcases settle_run hc hs with ⟨hs', hguard, _⟩
  exact ⟨rfl, hs', hguard⟩

omit [ctx.Quiet] in
theorem header_answers {c : Class} (hc : c.origin.cell? = none)
    : Answers ctx w c.header c.origin.header := by
  unfold Class.header Class.cell
  rw [hc]
  exact Answers.bind (Answers.pure _) (Answers.pure _)

theorem headerOf_answers {c : Class} (hc : c.Known w)
    : Answers ctx w (ctx.headerOf c) (ctx.knownHeader c) := by
  cases hcell : c.origin.cell? with
  | none =>
    rw [knownHeader_of_cell?_eq_none hcell]
    exact Answers.bind (settle_answers hc) (header_answers hcell)
  | some n =>
    intro s hs
    rcases settle_run hc hs with ⟨hs', hguard, hready⟩
    have hget : (Query.getCell n).run ((ctx.settle c).run s).2
        = (.ready (ctx.declaration? c.name), ((ctx.settle c).run s).2) := by
      rw [← hready n hcell]
      rfl
    have hcellEq : c.cell = Query.getCell n := by
      simp only [Class.cell, hcell]
    unfold headerOf Class.header
    rw [hcellEq]
    simp only [Query.run_bind, hget, knownHeader, hcell, Option.isSome_some, if_true]
    cases ctx.declaration? c.name with
    | none => exact ⟨rfl, hs', hguard⟩
    | some header => exact ⟨rfl, hs', hguard⟩

end Context

end LuaClasses
