import LuaClasses.Proofs.Correspondence
import LuaClasses.Proofs.Members

/-!
This module contains the subtype check without cells: the index is a fact that is known from the
start, and what is left of the state is the guard. The check of queries does the same, step by step,
so what holds of one holds of the other.
-/

namespace LuaClasses

/--
The guard has these limits, and these comparisons are under way.
-/
structure Guard.At (limits : Limits) (active : List κ) (g : Guard κ) : Prop where
  limits_eq : g.limits = limits
  active_eq : g.active = active
  depth_eq : g.depth = active.length

namespace Guard.At

variable {limits : Limits} {active : List κ} {g : Guard κ}

theorem enter_cases [BEq κ] [LawfulBEq κ] (h : g.At limits active) (key : κ)
    : ((g.enter key).1.isExceeded = true ∧ (g.enter key).2.At limits active ∧
        (g.enter key).2.exceeded = true) ∨
      ((g.enter key).1 = .cycle ∧ key ∈ active ∧ (g.enter key).2.At limits active ∧
        (g.enter key).2.exceeded = g.exceeded) ∨
      ((g.enter key).1 = .entered ∧ active.length < min limits.maxDepth maxActive ∧
        (g.enter key).2.At limits (key :: active) ∧ (g.enter key).2.exceeded = g.exceeded) := by
  rcases h with ⟨rfl, rfl, hdepth⟩
  generalize henter : g.enter key = result
  unfold enter at henter
  dsimp only at henter
  split at henter
  . rw [← henter]
    exact .inl ⟨rfl, ⟨rfl, rfl, hdepth⟩, rfl⟩
  . split at henter
    . rw [← henter]
      exact .inl ⟨rfl, ⟨rfl, rfl, hdepth⟩, rfl⟩
    . split at henter
      . next hkey =>
        rw [← henter]
        exact .inr (.inl ⟨rfl, by simpa using hkey, ⟨rfl, rfl, hdepth⟩, rfl⟩)
      . split at henter
        . rw [← henter]
          exact .inl ⟨rfl, ⟨rfl, rfl, hdepth⟩, rfl⟩
        . rw [← henter]
          exact .inr (.inr ⟨rfl, by omega, ⟨rfl, rfl, by simp [hdepth]⟩, rfl⟩)

theorem not_mem_of_entered [BEq κ] [LawfulBEq κ] {key : κ} (h : g.At limits active)
    (hentered : (g.enter key).1 = .entered)
    : key ∉ active := by
  rcases h with ⟨_, rfl, _⟩
  unfold enter at hentered
  dsimp only at hentered
  split at hentered
  . cases hentered
  . split at hentered
    . cases hentered
    . split at hentered
      . cases hentered
      . next hkey => simpa using hkey

theorem room_lt (h : g.At limits active)
    : min limits.maxDepth maxActive - active.length < g.room + 1 := by
  unfold Guard.room
  rw [h.limits_eq, h.depth_eq]
  omega

theorem leave [BEq κ] [LawfulBEq κ] {key : κ} (h : g.At limits (key :: active))
    : (g.leave key).At limits active := by
  rcases h with ⟨hlimits, hactive, hdepth⟩
  constructor
  . exact hlimits
  . simp [Guard.leave, hactive]
  . simp [Guard.leave, hdepth]

end Guard.At

/--
A check whose only state is the guard of structural comparisons.
-/
abbrev Guarded := StateM (Guard (String × String))

namespace Guarded

variable (ctx : Context)

def checker : Checker Guarded where
  settle _ := return ()
  hasAncestor c target := return (ctx.lineage c).any (· == target)
  isInterface c := return (ctx.knownHeader c).isInterface
  ownMembers c := return ctx.ownMemberList c
  findMember c name := return ctx.member? c name
  infer m := return .lower m.type
  enter key := modifyGet (·.enter key)
  leave key := modify (·.leave key)
  bound := return (← get).room + 1
  beyond := return false
  note _ := return ()

def isSubtype (source target : Ty Class) (strict : Bool) : Guarded Bool :=
  (checker ctx).isSubtype source target strict

def isSubclass (c : Class) (target : Ty Class) (strict : Bool) : Guarded Bool :=
  (checker ctx).isSubclass c target strict

theorem run_bind (p : Guarded α) (f : α → Guarded β) (g : Guard (String × String))
    : (p >>= f).run g = (f (p.run g).1).run (p.run g).2 :=
  rfl

theorem bound_run (g : Guard (String × String)) : (checker ctx).bound.run g = (g.room + 1, g) :=
  rfl

section Facts

variable {ctx} {conforms : Class → Class → Guarded Bool} {c : Class}

theorem bind_ite (p : Guarded Bool) : (do if ← p then return true else return false) = p := by
  have hpure : (fun b : Bool => if b then (pure true : Guarded Bool) else pure false) = pure := by
    funext b
    cases b <;> rfl
  rw [hpure, bind_pure]

theorem isRelated_eq (target : Class)
    : (checker ctx).isRelated conforms c target
        =
      if (ctx.lineage c).any (· == target) then return true
      else if (ctx.knownHeader target).isInterface then conforms c target
      else return false :=
  rfl

theorem checkClass_cls (target : Class)
    : (checker ctx).checkClass conforms c (.cls target)
        =
      if target == c then return true else (checker ctx).isRelated conforms c target :=
  rfl

theorem checkClass_union (members : List (Ty Class))
    : (checker ctx).checkClass conforms c (.union members)
        =
      members.anyM ((checker ctx).checkClass conforms c) := by
  rw [← Checker.checkClassAny_eq]
  exact bind_ite _

theorem checkClass_shape {target : Ty Class} (htop : target.isTop = false)
    (hclass : target.class? = none) (hunion : target.isUnion = false)
    : (checker ctx).checkClass conforms c target
        =
      return target.isTable || target.isArray && c.isEmptyTable := by
  have hshape : ∀ b b' : Bool,
      (if b then (return true : Guarded Bool) else return b') = return b || b' := by
    intro b b'
    cases b <;> rfl
  cases target with
  | any | unknown => cases htop
  | cls d => cases hclass
  | union members => cases hunion
  | nil | primitive p | array element | generic base params =>
    unfold Checker.checkClass
    exact hshape _ _

theorem hasMember_eq (subtype : Ty Class → Ty Class → Guarded Bool) (interface : Class)
    (required : Member)
    : (checker ctx).hasMember subtype c interface required
        =
      match required.name.bind (ctx.member? c) with
      | none => return false
      | some provided => subtype (.lower provided.type) (.lower required.type) := by
  unfold Checker.hasMember
  cases required.name with
  | none => rfl
  | some name =>
    have hfind : (checker ctx).findMember c name = return ctx.member? c name := rfl
    dsimp only
    rw [hfind, pure_bind, Option.bind_some]
    cases ctx.member? c name with
    | none => rfl
    | some provided => exact bind_ite _

end Facts

section Within

variable {ctx} {c interface : Class} {g : Guard (String × String)} (p : Guarded Bool)

theorem within_run_of_entered (h : (g.enter (c.name, interface.name)).1 = .entered)
    : ((checker ctx).within c interface p).run g
        =
      ((p.run (g.enter (c.name, interface.name)).2).1,
        (p.run (g.enter (c.name, interface.name)).2).2.leave (c.name, interface.name)) := by
  have henter : ((checker ctx).enter (c.name, interface.name)).run g
      = g.enter (c.name, interface.name) := rfl
  unfold Checker.within
  rw [run_bind, henter, h]
  rfl

theorem within_run_of_cycle (h : (g.enter (c.name, interface.name)).1 = .cycle)
    : ((checker ctx).within c interface p).run g
        =
      (true, (g.enter (c.name, interface.name)).2) := by
  have henter : ((checker ctx).enter (c.name, interface.name)).run g
      = g.enter (c.name, interface.name) := rfl
  unfold Checker.within
  rw [run_bind, henter, h]
  rfl

theorem within_run_of_isExceeded (h : (g.enter (c.name, interface.name)).1.isExceeded = true)
    : ((checker ctx).within c interface p).run g
        =
      (false, (g.enter (c.name, interface.name)).2) := by
  have henter : ((checker ctx).enter (c.name, interface.name)).run g
      = g.enter (c.name, interface.name) := rfl
  unfold Checker.within
  rw [run_bind, henter]
  cases hcase : (g.enter (c.name, interface.name)).1 with
  | depthExceeded | iterationExceeded => rfl
  | entered | cycle =>
    rw [hcase] at h
    cases h

end Within

end Guarded

end LuaClasses
