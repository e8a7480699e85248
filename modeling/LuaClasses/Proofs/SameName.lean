import LuaClasses.Proofs.Decision
import LuaClasses.Proofs.Session

/-!
This module contains what the subtype check comes to for classes of any origin. The guard knows a
comparison by the names of its two classes, so a comparison of a table or of a global is taken for
that of another class which happens to have the same name. The check decides the largest relation in
which that one pair of names is taken on credit.
-/

namespace LuaClasses

namespace Context

variable {ctx : Context} {strict : Bool} {H : Ty Class → Ty Class → Prop}

theorem RelatedUpTo.repay {s t : Ty Class} (h : ctx.RelatedUpTo strict H s t)
    (hH : ∀ s t, H s t → ctx.Related strict s t)
    : ctx.Related strict s t := by
  refine ⟨fun s t => ctx.RelatedUpTo strict H s t ∨ ctx.Related strict s t, ?_, .inl h⟩
  rintro s t (h | h)
  . exact h.dest.mono fun s t h => h.imp_right (hH s t)
  . exact h.dest.mono fun _ _ => .inr

/--
Whether a class is related to another one, given that a comparison of the classes that the two names
refer to succeeds.
-/
def RelatedOnCredit (ctx : Context) (strict : Bool) (c d : Class) : Prop :=
  ctx.RelatedUpTo strict (Assumed ctx [(c.name, d.name)]) (.cls c) (.cls d)

theorem RelatedOnCredit.repay {c d : Class} (h : ctx.RelatedOnCredit strict c d)
    (hnames : ctx.Related strict (.cls (.reference c.name)) (.cls (.reference d.name)))
    : ctx.Related strict (.cls c) (.cls d) := by
  apply RelatedUpTo.repay h
  intro s t hassumed
  cases hassumed with
  | intro hmem _ =>
    cases List.mem_singleton.1 hmem
    exact hnames

end Context

namespace Guarded

variable {ctx : Context} {strict : Bool} {limits : Limits}

theorem conforms_decides_credit {room : Nat}
    (hroom : min limits.maxDepth Guard.maxActive < room) {c d : Class}
    (hinterface : (ctx.knownHeader d).isInterface = true)
    : Decides limits [] ((checker ctx).conforms strict room c d)
        (ctx.RelatedOnCredit strict c d)
        (ctx.Provides (ctx.RelatedAmid strict [(c.name, d.name)]) c d) := by
  cases room with
  | zero => omega
  | succ room =>
    apply Decides.within
    . exact nofun
    . intro _ _
      -- From here on only classes given by their names are compared.
      have hroom' :
          min limits.maxDepth Guard.maxActive - [(c.name, d.name)].length < room := by
        rw [List.length_singleton]
        omega
      have hsubtype : ∀ e e', Decides limits [(c.name, d.name)]
          ((checker ctx).subtype strict room (.lower e) (.lower e'))
          (ctx.RelatedAmid strict [(c.name, d.name)] (.lower e) (.lower e'))
          (ctx.RelatedAmid strict [(c.name, d.name)] (.lower e) (.lower e')) := by
        intro e e'
        apply subtype_decides _ (Ty.all_lower e) (Ty.all_lower e')
        exact fun _ _ => conforms_decides room hroom' (List.Subset.refl _)
      apply (hasMembers_decides hsubtype c d (ctx.ownMemberList d)).weaken
      . intro h
        exact Context.RelatedUpTo.step (.interface hinterface h)
      . exact id

theorem isSubclass_decides (c d : Class)
    : Decides limits [] (isSubclass ctx c (.cls d) strict)
        (ctx.RelatedOnCredit strict c d) (ctx.RelatedOnCredit strict c d) := by
  intro g hg
  have hroom := hg.room_lt
  rw [List.length_nil, Nat.sub_zero] at hroom
  unfold isSubclass Checker.isSubclass
  rw [run_bind, bound_run, checkClass_cls, Class.beq_comm]
  split
  . next h =>
    exact Decides.pure (fun _ => Context.RelatedUpTo.step (.same h)) (fun _ => rfl) g hg
  . next h =>
    have hP : ∀ s t, ctx.Step strict
        (ctx.RelatedUpTo strict (Context.Assumed ctx [(c.name, d.name)])) s t →
        ctx.RelatedUpTo strict (Context.Assumed ctx [(c.name, d.name)]) s t :=
      fun _ _ h => Context.RelatedUpTo.step (h.mono fun _ _ => .inl)
    exact isRelated_decides hP (conforms_decides_credit hroom)
      (fun h => h.dest.classStep) (by simpa using h) g hg

end Guarded

open Query

theorem subclass_verdict_on_credit (index : Index) (options : Options) (scope : Scope)
    (limits : Limits) {history : List Request} {pool : List Class} {s : QueryState}
    (h : Session { index, options, scope } limits history pool s) {c d : Class} (hc : c ∈ pool)
    (hd : d ∈ pool) (strict : Bool)
    : let ctx : Context := { index, options, scope }
      let result := (ctx.isSubclass c (.cls d) strict).run s
      (result.1 = true → ctx.RelatedOnCredit strict c.erase d.erase) ∧
      (result.2.guard.exceeded = false → ctx.RelatedOnCredit strict c.erase d.erase →
        result.1 = true) ∧
      (result.1 = true →
        ctx.Related strict (.cls (.reference c.name)) (.cls (.reference d.name)) →
        ctx.Related strict (.cls c.erase) (.cls d.erase)) := by
  intro ctx result
  rcases h.invariant with ⟨w, hs, hpool, hready⟩
  rcases Context.isSubclass_mirrors (hpool c hc) (Ty.all_cls.2 (hpool d hd)) strict w s
    (List.prefix_refl w) hs with ⟨_, _, _, hguard, hanswer⟩
  rcases Guarded.isSubclass_decides c.erase d.erase s.guard hready.toAt with
    ⟨_, _, hsound, hcomplete⟩
  refine ⟨?_, ?_, ?_⟩
  . intro haccepts
    exact hsound (hanswer ▸ haccepts)
  . intro hlimit hrelated
    exact hanswer.trans (hcomplete (hguard ▸ hlimit) hrelated)
  . intro haccepts hnames
    exact (hsound (hanswer ▸ haccepts)).repay hnames

/--
A table literal with a field whose type is the class of the literal's own name, of which nothing is
declared.
-/
def Class.ring : Class :=
  .ofTableLiteral "ring.lua" 1 [.new "next" .pub (.named (Identity.tableLiteral "ring.lua" 1))]

theorem ring_accepted_on_credit
    : let ctx : Context := { index := .linked }
      let node := Class.referenceAt "Node" 0
      let made := (do
        discard ((Maker.reference "Node").run ctx)
        (Maker.tableLiteral "ring.lua" 1
          [.new "next" .pub (.named (Identity.tableLiteral "ring.lua" 1))]).run ctx
        : Query (Ty Class)).run (.fresh .standard)
      ((ctx.isSubclass .ring (.cls node) true).run made.2).1 = true ∧
      ctx.RelatedOnCredit true .ring (.reference "Node") := by
  intro ctx node made
  have hmade : Session ctx .standard [] [node, .ring] made.2 :=
    .make (.tableLiteral "ring.lua" 1 _) (.make (.reference "Node") .start)
  have haccepts : ((ctx.isSubclass .ring (.cls node) true).run made.2).1 = true := by
    decide +kernel
  have hverdict := subclass_verdict_on_credit .linked {} .project .standard hmade
    (List.mem_cons_of_mem node List.mem_cons_self) List.mem_cons_self true
  exact ⟨haccepts, hverdict.1 haccepts⟩

theorem ring_not_related
    : let ctx : Context := { index := .linked }
      let made := ((Maker.reference "Node").run ctx).run (.fresh .standard)
      ((ctx.isSubclass .ring (.cls (.referenceAt "Node" 0)) true).run made.2).1 = true ∧
      ¬ctx.Related true (.cls .ring) (.cls (.reference "Node")) := by
  intro ctx made
  refine ⟨by decide +kernel, ?_⟩
  intro h
  have hmembers : ctx.ownMemberList (.reference "Node")
      = [{ name := some "next", owner := "Node", visibility := .pub, type := .named "Node" }] := by
    rfl
  cases h.dest.classStep with
  | same h => revert h; decide +kernel
  | ancestor h => revert h; decide +kernel
  | interface _ hprovides =>
    rcases hprovides _ (hmembers ▸ List.mem_singleton_self _) with ⟨provided, hprovided, hnext⟩
    cases hprovided
    -- The class of the name has no member, so nothing can justify the pair that was on credit.
    cases hnext.dest.classStep with
    | same h => revert h; decide +kernel
    | ancestor h => revert h; decide +kernel
    | interface _ hprovides =>
      rcases hprovides _ (hmembers ▸ List.mem_singleton_self _) with ⟨provided, hprovided, _⟩
      have hnone : (ctx.member? (.reference (Identity.tableLiteral "ring.lua" 1)) "next").isNone
          = true := by
        decide +kernel
      cases (Option.isNone_iff_eq_none.1 hnone).symm.trans hprovided

end LuaClasses
