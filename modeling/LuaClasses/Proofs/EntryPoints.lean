import LuaClasses.Proofs.Simulation

/-!
This module contains the proof that the two ways to ask about a class agree: the check of a class,
and the check of the type that is just this class. The second one looks through unions by itself, so
it may not have asked the index for the class where the first one has. Nothing but that can tell
their states apart.
-/

namespace LuaClasses

open Query

namespace Context

variable {ctx : Context} [ctx.Quiet] {c : Class} {s s' : QueryState}

/--
Whether two states are the same but for a class that has been settled in one of them only.
-/
def Level (ctx : Context) (c : Class) (s s' : QueryState) : Prop :=
  (ctx.settle c).run s = (ctx.settle c).run s'

theorem Level.guard_eq (h : ctx.Level c s s') : s.guard = s'.guard := by
  have hguard := congrArg (·.2.guard) h
  simp only [settle_guard] at hguard
  exact hguard

theorem Level.settle (h : ctx.Level c s s') : ctx.Level c ((ctx.settle c).run s).2 s' := by
  unfold Level
  rw [settle_run_of_settled (ctx.settled_settle c s)]
  exact h

end Context

namespace Query

/--
From states that are level, the two queries give the same answer, and come to states that are level.
-/
def Aligned (ctx : Context) (c : Class) (q q' : Query α) : Prop :=
  ∀ s s', ctx.Level c s s' →
    (q.run s).1 = (q'.run s').1 ∧ ctx.Level c (q.run s).2 (q'.run s').2

namespace Aligned

variable {ctx : Context} {c : Class}

theorem pure (a : α) : Aligned ctx c (Pure.pure a) (Pure.pure a) :=
  fun _ _ h => ⟨rfl, h⟩

theorem bind {q q' : Query α} {f f' : α → Query β} (hq : Aligned ctx c q q')
    (hf : ∀ a, Aligned ctx c (f a) (f' a))
    : Aligned ctx c (q >>= f) (q' >>= f') := by
  intro s s' h
  rcases hq s s' h with ⟨hanswer, hlevel⟩
  rw [run_bind, run_bind, hanswer]
  exact hf _ _ _ hlevel

theorem congruence : Ty.Congruence (Aligned ctx c) :=
  .of_bind pure bind

/--
A query that starts with the class being settled cannot tell level states apart.
-/
theorem settled (f : Unit → Query α)
    : Aligned ctx c (ctx.settle c >>= f) (ctx.settle c >>= f) := by
  intro s s' h
  rw [run_bind, run_bind, h]
  exact ⟨rfl, rfl⟩

theorem settle_pure [ctx.Quiet] (a : α)
    : Aligned ctx c (do ctx.settle c; return a) (Pure.pure a) :=
  fun _ _ h => ⟨rfl, h.settle⟩

end Aligned

end Query

namespace Context

variable {ctx : Context} [ctx.Quiet] (conforms : Class → Class → Query Bool) (c : Class)

theorem checkClass_aligned (target : Ty Class)
    : Aligned ctx c (ctx.checker.checkClass conforms c target)
        (Ty.acceptedBy (.cls c) (ctx.checker.checkClass conforms c) target) := by
  induction target with
  | any | unknown =>
    unfold Ty.acceptedBy
    split <;> exact Aligned.pure true
  | cls target =>
    unfold Ty.acceptedBy
    change Aligned ctx c _
      (if c == target then _ else ctx.checker.checkClass conforms c (.cls target))
    rw [Checker.checkClass, Class.beq_comm]
    split
    . exact Aligned.pure true
    . exact Aligned.settled _
  | union members ih =>
    have hmembers : Aligned ctx c (members.anyM (ctx.checker.checkClass conforms c))
        (members.anyM (Ty.acceptedBy (.cls c) (ctx.checker.checkClass conforms c))) := by
      simpa using Aligned.congruence.anyM (f := id) (g := id) ih
    rw [← Checker.checkClassAny_eq, ← Ty.acceptedByAny_eq] at hmembers
    unfold Ty.acceptedBy Checker.checkClass
    change Aligned ctx c _ (Ty.acceptedByAny _ _ _)
    rw [← bind_pure (Ty.acceptedByAny _ _ _)]
    apply hmembers.bind
    intro b
    cases b with
    | true => exact Aligned.pure true
    | false => exact Aligned.settle_pure false
  | nil | primitive p | array element | generic base params =>
    unfold Ty.acceptedBy
    change Aligned ctx c _ (ctx.checker.checkClass conforms c _)
    unfold Checker.checkClass
    split
    . exact Aligned.pure true
    . exact Aligned.settled _

end Context

/--
A class and the type of this class are accepted by the same types, in every state. Both checks come
to the same guard, and to the same state once the class is settled.
-/
theorem isSubclass_eq_isSubtype (index : Index) (options : Options) (scope : Scope) (c : Class)
    (target : Ty Class) (strict : Bool) (s : QueryState)
    : let ctx : Context := { index, options, scope }
      let ofClass := (ctx.isSubclass c target strict).run s
      let ofType := (ctx.isSubtype (.cls c) target strict).run s
      ofClass.1 = ofType.1 ∧ ofClass.2.guard = ofType.2.guard ∧
        (ctx.settle c).run ofClass.2 = (ctx.settle c).run ofType.2 := by
  intro ctx ofClass ofType
  have haligned := ctx.checkClass_aligned (ctx.checker.conforms strict (s.guard.room + 1)) c target
  rcases haligned s s rfl with ⟨hanswer, hlevel⟩
  exact ⟨hanswer, hlevel.guard_eq, hlevel⟩

end LuaClasses
