import LuaClasses.Proofs.Registration
import LuaClasses.Proofs.Upkeep

/-!
This module contains runs in which the index changes while class values are in use. A class value
that needs the index is filled in once, by the first query that needs it, from the index as it is at
that moment. What the index says later is of no consequence for it.
-/

namespace LuaClasses

open Query

/--
A query about class values.
-/
inductive Inquiry where
  | settle (c : Class)
  | superclass (c : Class)
  | interfaces (c : Class)
  /-- The walk goes on while the classes seen so far pass the test. -/
  | walkAncestors (c : Class) (goesOn : List Class → Bool)
  | hasAncestor (c : Class) (base : String)
  | walkAlternateNames (c : Class) (goesOn : List String → Bool)
  | findOwnMember (c : Class) (name : String)
  | findInheritedMember (c : Class) (name : String)
  | resolve (name : String)
  | infer (m : Member)
  | request (r : Request)

namespace Inquiry

def nameVisitor (goesOn : List String → Bool) (name : String) :
    StateT (List String) Query Bool := do
  modify (· ++ [name])
  return goesOn (← get)

/--
Make a query. The result is the list of the classes in the answer.
-/
def run (ctx : Context) : Inquiry → Query (List Class)
  | .settle c => do
    ctx.settle c
    return []
  | .superclass c => do return (← ctx.superclass c).toList
  | .interfaces c => ctx.interfaces c
  | .walkAncestors c goesOn => do
    return (← (ctx.walkAncestors c (Request.visitor goesOn)).run []).2
  | .hasAncestor c base => do
    let _ ← ctx.hasAncestor c base
    return []
  | .walkAlternateNames c goesOn => do
    let _ ← (ctx.walkAlternateNames c (nameVisitor goesOn)).run []
    return []
  | .findOwnMember c name => do
    let _ ← ctx.findOwnMember c name
    return []
  | .findInheritedMember c name => do
    let _ ← ctx.findInheritedMember c name
    return []
  | .resolve name => do return (← ctx.resolve name).toList
  | .infer m => do return (← ctx.infer m).classes
  | .request r => do return (← r.run ctx).mentions

/--
Whether a query is about classes of the pool only.
-/
def Over (pool : List Class) : Inquiry → Prop
  | .settle c | .superclass c | .interfaces c | .walkAncestors c _ | .hasAncestor c _
  | .walkAlternateNames c _ | .findOwnMember c _ | .findInheritedMember c _ => c ∈ pool
  | .resolve _ | .infer _ => True
  | .request r => r.Over pool

variable {ctx : Context}

theorem names_run (goesOn : List String → Bool) (names seen : List String)
    : ∃ r, (names.allM (nameVisitor goesOn)).run seen = pure r := by
  induction names generalizing seen with
  | nil => exact ⟨_, rfl⟩
  | cons name rest ih =>
    have hvisit : (nameVisitor goesOn name).run seen
        = pure (goesOn (seen ++ [name]), seen ++ [name]) := rfl
    rw [List.allM_cons, StateT.run_bind, hvisit, pure_bind]
    split
    . exact ih _
    . exact ⟨_, rfl⟩

theorem cell?_eq_none_of_mem_walk {goesOn : List Class → Bool} {start a : Class}
    (h : a ∈ (ctx.walk (fun c seen => (goesOn (seen ++ [c]), seen ++ [c])) start []).2)
    : a.origin.cell? = none := by
  have hvisit : ∀ {cs seen : List Class}, (∀ b ∈ seen, b.origin.cell? = none) →
      (∀ b ∈ cs, b.origin.cell? = none) →
      ∀ b ∈ (visitAll (fun c seen => (goesOn (seen ++ [c]), seen ++ [c])) cs seen).2,
        b.origin.cell? = none := by
    intro cs seen hseen hcs b hb
    exact (mem_of_mem_visitAll goesOn hb).elim (hseen b) (hcs b)
  have hsuperclasses : ∀ b ∈ (ctx.superclasses start).1, b.origin.cell? = none :=
    fun _ => Context.cell?_eq_none_of_mem_superclasses
  have hinterfaces : ∀ b ∈ ctx.interfaceForest start, b.origin.cell? = none :=
    fun _ => Context.cell?_eq_none_of_mem_interfaceForest
  have hclimbed := hvisit (List.forall_mem_nil _) hsuperclasses
  unfold Context.walk Context.climbEnd at h
  generalize visitAll _ (ctx.superclasses start).1 [] = climbed at h hclimbed
  rcases climbed with ⟨goes, seen⟩
  have hforest := hvisit hclimbed hinterfaces
  cases goes with
  | false => exact hforest a h
  | true =>
    cases hrepeated : (ctx.superclasses start).2 with
    | false =>
      rw [hrepeated] at h
      exact hforest a h
    | true =>
      rw [hrepeated] at h
      exact hclimbed a h

variable [ctx.Quiet] {w : World}

theorem walkAlternateNames_safe {c : Class} (hc : c.Known w) (goesOn : List String → Bool)
    : Safe ctx w ((ctx.walkAlternateNames c (nameVisitor goesOn)).run []) := by
  unfold Context.walkAlternateNames
  rw [StateT.run_bind, StateT.run_monadLift, bind_assoc]
  apply (Keeps.safe_of_reads (Context.alternateNames_reads c) hc).andThen
  intro names
  rcases names_run goesOn names [] with ⟨r, hr⟩
  rw [pure_bind, hr]
  exact Keeps.silent r

theorem run_keeps {pool : List Class} (hpool : ∀ c ∈ pool, c.Known w) {q : Inquiry}
    (hq : q.Over pool)
    : Keeps ctx w (q.run ctx) fun w' cs => ∀ c ∈ cs, c.Known w' := by
  have hsilent : ∀ {α : Type} {p : Query α}, Safe ctx w p →
      Keeps ctx w (do let _ ← p; return []) fun w' cs => ∀ c ∈ cs, Class.Known w' c := by
    intro α p hp
    exact hp.andThen fun _ => Keeps.pure fun _ _ => List.forall_mem_nil _
  have hfound : ∀ {α : Type} {p : Query α} (classes : α → List Class),
      Keeps ctx w p (fun _ found => ∀ a ∈ classes found, a.origin.cell? = none) →
      Keeps ctx w (do return classes (← p)) fun w' cs => ∀ c ∈ cs, Class.Known w' c := by
    intro α p classes hp
    apply hp.bind
    intro _ found _ hfound
    exact Keeps.pure fun _ _ a ha => Class.known_of_cell?_eq_none (hfound a ha)
  cases q with
  | settle c => exact hsilent (Keeps.settle (hpool c hq))
  | superclass c =>
    apply hfound Option.toList (Keeps.of_reads (Context.superclass_reads c) (hpool c hq) _)
    intro _ d _ a ha
    exact Context.cell?_eq_none_of_superclass? (Option.mem_toList.1 ha)
  | interfaces c =>
    apply Keeps.of_reads (Context.interfaces_reads c) (hpool c hq)
    intro _ d _ a ha
    exact Class.known_of_cell?_eq_none (Context.cell?_eq_none_of_mem_extended ha)
  | walkAncestors c goesOn =>
    have hwalk : ctx.Reads c ((ctx.walkAncestors c (Request.visitor goesOn)).run [])
        fun d => ctx.walk (fun c seen => (goesOn (seen ++ [c]), seen ++ [c])) d [] :=
      Context.walkAncestors_reads (fun _ _ _ => Finds.pure _) c []
    apply hfound Prod.snd (Keeps.of_reads hwalk (hpool c hq) _)
    exact fun _ _ _ _ ha => cell?_eq_none_of_mem_walk ha
  | hasAncestor c base =>
    exact hsilent (Keeps.safe_of_reads (Context.anyAncestor_reads c _) (hpool c hq))
  | walkAlternateNames c goesOn =>
    exact hsilent (walkAlternateNames_safe (hpool c hq) goesOn)
  | findOwnMember c name =>
    exact hsilent (Keeps.safe_of_reads (Context.findOwnMember_reads c name) (hpool c hq))
  | findInheritedMember c name =>
    exact hsilent (Keeps.safe_of_reads (Context.findInheritedMember_reads c name) (hpool c hq))
  | resolve name =>
    apply hfound Option.toList (Keeps.of_finds (Context.resolve_finds name) _)
    exact fun _ _ a ha => Context.cell?_eq_none_of_declared? (Option.mem_toList.1 ha)
  | infer m =>
    apply (Keeps.of_makes (ctx.infer_makes m)).bind
    intro _ t _ ht
    exact Keeps.pure fun _ hw => ht.known.mono hw
  | request r =>
    apply (Request.run_keeps hpool hq).bind
    intro _ a _ ha
    exact Keeps.pure fun _ hw c hc => (ha c hc).mono hw

end Inquiry

/--
Make a change to an index, and record a registration.
-/
def Change.run (i : Index) : Change → Query Index
  | .register r => i.register r.decl r.file
  | change => return change.apply i

theorem Change.run_eq (change : Change) (i : Index) (s : QueryState)
    : ((change.run i).run s).1 = change.apply i ∧
      ((change.run i).run s).2.cells = s.cells ∧
      ((change.run i).run s).2.cellCount = s.cellCount := by
  cases change with
  | register r => rcases r with ⟨d, _ | file⟩ <;> exact ⟨rfl, rfl, rfl⟩
  | addMember owner m => exact ⟨rfl, rfl, rfl⟩
  | addAlias a => exact ⟨rfl, rfl, rfl⟩
  | markFault name fault => exact ⟨rfl, rfl, rfl⟩

/--
A moment of a run: the index, the context in which queries are made, and the class values.
-/
structure Stage where
  index : Index
  options : Options
  scope : Scope
  state : QueryState
  pool : List Class

inductive Operation where
  | make (m : Maker)
  | ask (q : Inquiry)
  | change (c : Change)
  /-- Make the next queries in another context, with a guard of its own. -/
  | turnTo (options : Options) (scope : Scope) (guard : Guard (String × String))

def Operation.Over (pool : List Class) : Operation → Prop
  | .ask q => q.Over pool
  | _ => True

namespace Stage

def start (index : Index) (limits : Limits) : Stage where
  index
  options := {}
  scope := .project
  state := .fresh limits
  pool := []

def context (σ : Stage) : Context :=
  { index := σ.index, options := σ.options, scope := σ.scope }

instance (σ : Stage) : σ.context.Quiet where
  observe_eq _ := rfl

def apply (σ : Stage) : Operation → Stage
  | .make m =>
    let result := (m.run σ.context).run σ.state
    { σ with state := result.2, pool := σ.pool ++ result.1.classes }
  | .ask q =>
    let result := (q.run σ.context).run σ.state
    { σ with state := result.2, pool := σ.pool ++ result.1 }
  | .change c =>
    let result := (c.run σ.index).run σ.state
    { σ with index := result.1, state := result.2 }
  | .turnTo options scope guard =>
    { σ with options, scope, state := { σ.state with guard } }

/--
How far a class is known at this moment.
-/
def cellOf (σ : Stage) (c : Class) : Cell :=
  (c.cell.run σ.state).1

/--
What is known of a class at this moment.
-/
def headerOf (σ : Stage) (c : Class) : Header :=
  (c.header.run σ.state).1

end Stage

/--
A run leads from one stage to another one by operations on class values that are there.
-/
inductive Runs : Stage → List Operation → Stage → Prop where
  | nil {σ} : Runs σ [] σ
  | cons {σ σ' op ops} : op.Over σ.pool → Runs (σ.apply op) ops σ' → Runs σ (op :: ops) σ'

namespace Stage

variable {σ σ' : Stage} {c : Class}

theorem cellOf_of_some {n : Nat} (h : c.origin.cell? = some n) : σ.cellOf c = σ.state.cell n := by
  unfold cellOf Class.cell
  rw [h]
  rfl

theorem cellOf_of_none (h : c.origin.cell? = none) : σ.cellOf c = .ready none := by
  unfold cellOf Class.cell
  rw [h]
  rfl

theorem headerOf_of_ready {found : Option Header} (h : σ.cellOf c = .ready found)
    : σ.headerOf c = found.getD c.origin.header := by
  unfold cellOf at h
  unfold headerOf Class.header
  rw [run_bind, h]
  cases found <;> rfl

theorem headerOf_congr (h : σ'.cellOf c = σ.cellOf c) : σ'.headerOf c = σ.headerOf c :=
  Class.header_congr h

theorem headerOf_of_uninitialized (h : σ.cellOf c = .uninitialized)
    : σ.headerOf c = c.origin.header := by
  unfold cellOf at h
  unfold headerOf Class.header
  rw [run_bind, h]
  rfl

/--
What holds at every stage of a run: no look-up is under way, and each class value has the cell that
was made for it.
-/
structure Sound (w : World) (σ : Stage) : Prop where
  atRest : σ.state.AtRest w
  known : ∀ c ∈ σ.pool, c.Known w

theorem start_sound (index : Index) (limits : Limits) : (start index limits).Sound [] :=
  ⟨QueryState.fresh_atRest limits, List.forall_mem_nil _⟩

/--
What an operation may do to the class values.
-/
structure Step (w : World) (σ : Stage) (op : Operation) (w' : World) (σ' : Stage) : Prop where
  world_prefix : w <+: w'
  sound : σ'.Sound w'
  pool_prefix : σ.pool <+: σ'.pool
  cell_eq : ∀ n, σ'.state.cell n = σ.state.cell n ∨
    σ.state.cell n = .uninitialized ∧ ∃ q name, op = .ask q ∧ w'[n]? = some name ∧
      σ'.state.cell n = .ready (σ.context.declaration? name)

theorem Sound.step {w : World} (h : σ.Sound w) {op : Operation} (hop : op.Over σ.pool)
    : ∃ w', Step w σ op w' (σ.apply op) := by
  have happend : ∀ {w' : World} {cs : List Class}, w <+: w' → (∀ c ∈ cs, c.Known w') →
      ∀ c ∈ σ.pool ++ cs, c.Known w' := by
    intro w' cs hw hcs c hc
    rcases List.mem_append.1 hc with hc | hc
    . exact (h.known c hc).mono hw
    . exact hcs c hc
  cases op with
  | make m =>
    rcases m.run_makes w σ.state (List.prefix_refl w) h.atRest.cellCount_eq with
      ⟨w', hw, hcount, hcell, _, hknown⟩
    exact ⟨w', hw, ⟨h.atRest.grow hw hcell hcount, happend hw hknown⟩, List.prefix_append _ _,
      fun n => .inl (hcell n)⟩
  | ask q =>
    have hkeeps : Keeps σ.context w (q.run σ.context) fun w' cs => ∀ c ∈ cs, c.Known w' :=
      Inquiry.run_keeps h.known hop
    rcases hkeeps w σ.state (List.prefix_refl w) h.atRest with ⟨w', hw, hrest, hevolves, hknown⟩
    refine ⟨w', hw, ⟨hrest, happend hw hknown⟩, List.prefix_append _ _, ?_⟩
    intro n
    rcases hevolves n with hsame | ⟨hun, name, hname, hready⟩
    . exact .inl hsame
    . exact .inr ⟨hun, q, name, rfl, hname, hready⟩
  | change change =>
    rcases change.run_eq σ.index σ.state with ⟨_, hcells, hcount⟩
    have hcell : ∀ n, (σ.apply (.change change)).state.cell n = σ.state.cell n :=
      fun n => congrArg (·.getD n .uninitialized) hcells
    have hrest := h.atRest.grow (List.prefix_refl w) hcell (hcount.trans h.atRest.cellCount_eq)
    exact ⟨w, List.prefix_refl w, ⟨hrest, h.known⟩, List.prefix_refl _, fun n => .inl (hcell n)⟩
  | turnTo options scope guard =>
    have hrest : (σ.apply (.turnTo options scope guard)).state.AtRest w :=
      h.atRest.grow (List.prefix_refl w) (fun _ => rfl) h.atRest.cellCount_eq
    exact ⟨w, List.prefix_refl w, ⟨hrest, h.known⟩, List.prefix_refl _, fun _ => .inl rfl⟩

end Stage

/--
A run in which a query fills a cell for the class of this name, and the cell stays so to the end.
-/
def Fills (n : Nat) (name : String) (σ : Stage) (ops : List Operation) (σ' : Stage) : Prop :=
  ∃ before q after τ, ops = before ++ .ask q :: after ∧ Runs σ before τ ∧
    Runs (τ.apply (.ask q)) after σ' ∧ τ.state.cell n = .uninitialized ∧
    (τ.apply (.ask q)).state.cell n = .ready (τ.context.declaration? name) ∧
    σ'.state.cell n = .ready (τ.context.declaration? name)

theorem Fills.cons {n : Nat} {name : String} {σ σ' : Stage} {op : Operation}
    {ops : List Operation} (h : Fills n name (σ.apply op) ops σ') (hop : op.Over σ.pool)
    : Fills n name σ (op :: ops) σ' := by
  rcases h with ⟨before, q, after, τ, rfl, hbefore, h⟩
  exact ⟨op :: before, q, after, τ, rfl, .cons hop hbefore, h⟩

/--
Over a run, a cell stays as it is, or it was not filled and one query of the run fills it for good.
-/
theorem Runs.cell_eq {σ σ' : Stage} {ops : List Operation} (h : Runs σ ops σ') {w : World}
    (hσ : σ.Sound w)
    : ∃ w', w <+: w' ∧ σ'.Sound w' ∧ σ.pool <+: σ'.pool ∧
      ∀ n, σ'.state.cell n = σ.state.cell n ∨
        σ.state.cell n = .uninitialized ∧ ∃ name, w'[n]? = some name ∧ Fills n name σ ops σ' := by
  induction h generalizing w with
  | nil => exact ⟨w, List.prefix_refl w, hσ, List.prefix_refl _, fun _ => .inl rfl⟩
  | @cons σ σ' op ops hop hrun ih =>
    rcases hσ.step hop with ⟨w₁, hstep⟩
    rcases ih hstep.sound with ⟨w₂, hw₂, hσ', hpool, hcells⟩
    refine ⟨w₂, hstep.world_prefix.trans hw₂, hσ', hstep.pool_prefix.trans hpool, ?_⟩
    intro n
    rcases hstep.cell_eq n with hsame | ⟨hun, q, name, rfl, hname, hready⟩
    . rcases hcells n with hsame' | ⟨hun, name, hname, hfills⟩
      . exact .inl (hsame'.trans hsame)
      . exact .inr ⟨hsame ▸ hun, name, hname, hfills.cons hop⟩
    . -- The cell is filled by the first operation, and so the others leave it alone.
      rcases hcells n with hsame' | ⟨hun', _⟩
      . have hfills : Fills n name σ (.ask q :: ops) σ' :=
          ⟨[], q, ops, σ, rfl, .nil, hrun, hun, hready, hsame'.trans hready⟩
        exact .inr ⟨hun, name, World.getElem?_of_prefix hw₂ hname, hfills⟩
      . rw [hready] at hun'
        cases hun'

namespace Stage.Sound

variable {w : World} {σ : Stage} {c : Class}

theorem cellOf_ne_initializing (h : σ.Sound w) (c : Class) : σ.cellOf c ≠ .initializing := by
  cases hcell : c.origin.cell? with
  | none =>
    rw [cellOf_of_none hcell]
    exact nofun
  | some n =>
    rw [cellOf_of_some hcell]
    exact h.atRest.ne_initializing n

theorem cellOf_settle (h : σ.Sound w) (c : Class)
    : ∃ found, (σ.apply (.ask (.settle c))).cellOf c = .ready found := by
  cases hcell : c.origin.cell? with
  | none => exact ⟨none, cellOf_of_none hcell⟩
  | some n =>
    rw [cellOf_of_some hcell]
    change ∃ found, ((σ.context.settle c).run σ.state).2.cell n = .ready found
    by_cases hun : σ.state.cell n = .uninitialized
    . rw [(σ.context.settle_run_of_uninitialized hcell hun).1 n, if_pos rfl]
      exact ⟨_, rfl⟩
    . rw [Context.settle_run_of_ne hcell hun]
      cases hready : σ.state.cell n with
      | uninitialized => exact absurd hready hun
      | initializing => exact absurd hready (h.atRest.ne_initializing n)
      | ready found => exact ⟨found, rfl⟩

end Stage.Sound

theorem filled_in_once (index : Index) (limits : Limits) {ops later : List Operation}
    {σ σ' : Stage} (hσ : Runs (.start index limits) ops σ) (hlater : Runs σ later σ') {c : Class}
    (hc : c ∈ σ.pool)
    : σ.pool <+: σ'.pool ∧
      σ.cellOf c ≠ .initializing ∧
      (∃ found, (σ.apply (.ask (.settle c))).cellOf c = .ready found) ∧
      (σ.cellOf c ≠ .uninitialized →
        σ'.cellOf c = σ.cellOf c ∧ σ'.headerOf c = σ.headerOf c) ∧
      ((σ.cellOf c = .uninitialized ∨ c.origin.cell? = none) ∧
        σ.headerOf c = c.origin.header ∨
      ∃ before q after τ, ops = before ++ .ask q :: after ∧
        Runs (.start index limits) before τ ∧ Runs (τ.apply (.ask q)) after σ ∧
        τ.cellOf c = .uninitialized ∧
        (τ.apply (.ask q)).cellOf c = .ready (τ.context.declaration? c.name) ∧
        σ.cellOf c = .ready (τ.context.declaration? c.name) ∧
        σ.headerOf c = (τ.context.declaration? c.name).getD c.origin.header) := by
  rcases hσ.cell_eq (Stage.start_sound index limits) with ⟨w, _, hsound, _, hcells⟩
  rcases hlater.cell_eq hsound with ⟨w', _, _, hpool, hcells'⟩
  refine ⟨hpool, hsound.cellOf_ne_initializing c, hsound.cellOf_settle c, ?_, ?_⟩
  . intro hfilled
    have hsame : σ'.cellOf c = σ.cellOf c := by
      cases hcell : c.origin.cell? with
      | none => rw [Stage.cellOf_of_none hcell, Stage.cellOf_of_none hcell]
      | some n =>
        rw [Stage.cellOf_of_some hcell] at hfilled
        rw [Stage.cellOf_of_some hcell, Stage.cellOf_of_some hcell]
        exact (hcells' n).resolve_right fun h => hfilled h.1
    exact ⟨hsame, Stage.headerOf_congr hsame⟩
  . cases hcell : c.origin.cell? with
    | none => exact .inl ⟨.inr rfl, Stage.headerOf_of_ready (Stage.cellOf_of_none hcell)⟩
    | some n =>
      rcases hcells n with hsame | ⟨_, name, hname, hfills⟩
      . have hun : σ.cellOf c = .uninitialized := by
          rw [Stage.cellOf_of_some hcell, hsame]
          exact (QueryState.fresh_atRest limits).cell_eq_of_le n (Nat.zero_le n)
        exact .inl ⟨.inl hun, Stage.headerOf_of_uninitialized hun⟩
      . rw [hsound.known c hc n hcell, Option.some.injEq] at hname
        subst hname
        rcases hfills with ⟨before, q, after, τ, hops, hbefore, hafter, hτ⟩
        simp only [← Stage.cellOf_of_some hcell] at hτ
        rcases hτ with ⟨hun, hready, hlast⟩
        exact .inr ⟨before, q, after, τ, hops, hbefore, hafter, hun, hready, hlast,
          Stage.headerOf_of_ready hlast⟩

/--
The registration of a class that extends another one, in no file.
-/
def Change.extend (name superName : String) : Change :=
  .register ⟨{ name, header := { superName := some superName } }, none⟩

theorem filled_in_once_dog
    : let dog := Class.referenceAt "Dog" 0
      let made := (Stage.start {} .standard).apply (.make (.reference "Dog"))
      let declared := made.apply (.change (.extend "Dog" "Animal"))
      let asked := declared.apply (.ask (.request (.ancestors dog)))
      let changed := asked.apply (.change (.extend "Dog" "Robot"))
      dog ∈ asked.pool ∧
      made.cellOf dog = .uninitialized ∧
      asked.cellOf dog = .ready (some { superName := some "Animal" }) ∧
      changed.context.declaration? "Dog" = some { superName := some "Robot" } ∧
      changed.cellOf dog = asked.cellOf dog ∧ changed.headerOf dog = asked.headerOf dog := by
  intro dog made declared asked changed
  have hmem : dog ∈ declared.pool := List.mem_singleton_self dog
  have hmem' : dog ∈ asked.pool := List.mem_append_left _ hmem
  have hover : (Operation.ask (.request (.ancestors dog))).Over declared.pool :=
    fun c hc => List.mem_singleton.1 hc ▸ hmem
  have hasked : Runs (.start {} .standard) [.make (.reference "Dog"),
      .change (.extend "Dog" "Animal"), .ask (.request (.ancestors dog))] asked :=
    .cons trivial (.cons trivial (.cons hover .nil))
  have hchanged : Runs asked [.change (.extend "Dog" "Robot")] changed := .cons trivial .nil
  have hready : asked.cellOf dog = .ready (some { superName := some "Animal" }) := by
    decide +kernel
  have hne : asked.cellOf dog ≠ .uninitialized := by
    rw [hready]
    exact nofun
  have honce := filled_in_once {} .standard hasked hchanged hmem'
  exact ⟨hmem', by decide +kernel, hready, by decide +kernel, honce.2.2.2.1 hne⟩

end LuaClasses
