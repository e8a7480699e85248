import LuaClasses.Proofs.Admission
import LuaClasses.Proofs.Decision
import LuaClasses.Proofs.Session

/-!
This module contains the proof that the subtype check keeps to the rules of its guard. The check is
followed step by step: a traced check does the same and keeps a record of its calls to the guard. It
has no answer where the bound on the nesting of comparisons is hit, but the guard refuses a
comparison before that. So every comparison that starts is ended, no other one is, and the guard
never has more of them under way than its limits allow, unless it had so before.
-/

namespace LuaClasses

namespace Guard

section Calls

variable [BEq κ] {g g' g'' : Guard κ} {calls calls' : List (Call κ)}

/--
The calls lead from one guard to the other. Every check that ends is under way at that time, and
there are never more than `most` checks under way.
-/
structure Course (most : Nat) (calls : List (Call κ)) (g g' : Guard κ) : Prop where
  balanced : g.balanced calls = true
  after_eq : g.after calls = g'
  length_le : ∀ calls', calls' <+: calls → (g.after calls').active.length ≤ most

namespace Course

variable {most : Nat}

theorem length_le_right (h : Course most calls g g') : g'.active.length ≤ most := by
  rw [← h.after_eq]
  exact h.length_le calls (List.prefix_refl calls)

theorem nil (h : g.active.length ≤ most) : Course most [] g g := by
  refine ⟨rfl, rfl, ?_⟩
  intro calls' hcalls'
  rw [List.prefix_nil.1 hcalls']
  exact h

theorem single {c : Call κ} (h : g.active.length ≤ most) (h' : (g.call c).active.length ≤ most)
    (hbalanced : g.balanced [c] = true)
    : Course most [c] g (g.call c) := by
  refine ⟨hbalanced, rfl, ?_⟩
  intro calls' hcalls'
  rcases List.prefix_cons_iff.1 hcalls' with rfl | ⟨rest, rfl, hrest⟩
  . exact h
  . rw [List.prefix_nil.1 hrest]
    exact h'

theorem append (h : Course most calls g g') (h' : Course most calls' g' g'')
    : Course most (calls ++ calls') g g'' := by
  rcases h with ⟨hbalanced, rfl, hlength⟩
  refine ⟨?_, ?_, ?_⟩
  . rw [balanced_append, hbalanced, h'.balanced]
    rfl
  . rw [after_append, h'.after_eq]
  . intro start hstart
    rcases List.prefix_or_prefix_of_prefix hstart (List.prefix_append calls calls') with
      hstart' | ⟨rest, rfl⟩
    . exact hlength start hstart'
    . rw [after_append]
      exact h'.length_le rest ((List.prefix_append_right_inj calls).1 hstart)

end Course

end Calls

end Guard

namespace Query

/--
The query leaves the guard alone.
-/
def Spares (q : Query α) : Prop :=
  ∀ s, (q.run s).2.guard = s.guard

namespace Spares

theorem of_finds {q : Query α} {a : α} (hq : Finds q a) : q.Spares :=
  fun s => (hq s).2.guard_eq

theorem of_reads {ctx : Context} [ctx.Quiet] {c : Class} {q : Query α} {f : Class → α}
    (hq : ctx.Reads c q f)
    : q.Spares := by
  intro s
  rw [(hq s).2.guard_eq, Context.settle_guard]

theorem of_makes {q : Query α} {good : World → α → Prop} (hq : Makes [] q good) : q.Spares := by
  intro s
  have hcount : s.cellCount = (List.replicate s.cellCount "").length := by simp
  rcases hq _ s List.nil_prefix hcount with ⟨_, _, _, _, hguard, _⟩
  exact hguard

end Spares

end Query

/--
A query that keeps a record of its calls to the guard, and that may have no answer.
-/
abbrev Traced := StateT (QueryState × List (Guard.Call (String × String))) Option

namespace Traced

/--
Make a query that does not call the guard.
-/
def ofQuery (q : Query α) : Traced α :=
  fun σ => some ((q.run σ.1).1, (q.run σ.1).2, σ.2)

/--
Make a query that is a call to the guard.
-/
def record (call : Guard.Call (String × String)) (q : Query α) : Traced α :=
  fun σ => some ((q.run σ.1).1, (q.run σ.1).2, σ.2 ++ [call])

def enter (key : String × String) : Traced Admission :=
  record (.enter key) (Query.enter key)

def leave (key : String × String) : Traced Unit :=
  record (.leave key) (Query.leave key)

/--
The check of queries with a record of its calls to the guard. There is no answer if comparisons nest
as deeply as `n` says.
-/
def checker (ctx : Context) (n : Nat) : Checker Traced where
  settle c := ofQuery (ctx.checker.settle c)
  hasAncestor c target := ofQuery (ctx.checker.hasAncestor c target)
  isInterface c := ofQuery (ctx.checker.isInterface c)
  ownMembers c := ofQuery (ctx.checker.ownMembers c)
  findMember c name := ofQuery (ctx.checker.findMember c name)
  infer m := ofQuery (ctx.checker.infer m)
  enter := enter
  leave := leave
  bound := return n
  beyond := failure
  note e := ofQuery (ctx.checker.note e)

/--
Whether `source` can be used where `target` is expected. There is no answer if comparisons nest as
deeply as `n` says.
-/
def isSubtype (ctx : Context) (n : Nat) (source target : Ty Class) (strict : Bool) : Traced Bool :=
  (checker ctx n).isSubtype source target strict

/--
In the state `s` the traced query does what the query does, with a related answer, and its calls
leave these comparisons under way.
-/
def Follows (limits : Limits) (most : Nat) (after : List (String × String)) (p : Traced α)
    (q : Query β) (rel : α → β → Prop) (s : QueryState)
    (calls : List (Guard.Call (String × String))) : Prop :=
  (q.run s).2.guard.At limits after ∧
  ∃ a new, p.run (s, calls) = some (a, (q.run s).2, calls ++ new) ∧ rel a (q.run s).1 ∧
    s.guard.Course most new (q.run s).2.guard

/--
The traced query follows the query wherever the comparisons `before` are under way.
-/
def Tracks (limits : Limits) (most : Nat) (before after : List (String × String)) (p : Traced α)
    (q : Query β) (rel : α → β → Prop) : Prop :=
  ∀ s calls, s.guard.At limits before → before.length ≤ most →
    Follows limits most after p q rel s calls

namespace Tracks

variable {limits : Limits} {most : Nat} {before between after active : List (String × String)}
  {key : String × String} {rel : α → β → Prop}

theorem of_spares {q : Query α} (hq : q.Spares)
    : Tracks limits most active active (ofQuery q) q Eq := by
  intro s calls hs hlength
  rw [← hs.active_eq] at hlength
  unfold Follows
  rw [hq s]
  refine ⟨hs, _, [], ?_, rfl, .nil hlength⟩
  rw [List.append_nil]
  rfl

theorem pure {a : α} {b : β} (h : rel a b)
    : Tracks limits most active active (Pure.pure a) (Pure.pure b) rel := by
  intro s calls hs hlength
  rw [← hs.active_eq] at hlength
  refine ⟨hs, a, [], ?_, h, .nil hlength⟩
  rw [List.append_nil]
  rfl

theorem weaken {p : Traced α} {q : Query β} {rel' : α → β → Prop}
    (h : Tracks limits most before after p q rel) (hrel : ∀ a b, rel a b → rel' a b)
    : Tracks limits most before after p q rel' := by
  intro s calls hs hlength
  rcases h s calls hs hlength with ⟨hs', a, new, hrun, ha, hcourse⟩
  exact ⟨hs', a, new, hrun, hrel a _ ha, hcourse⟩

theorem bind {p : Traced α} {q : Query β} {f : α → Traced γ} {g : β → Query δ}
    {rel' : γ → δ → Prop} (hp : Tracks limits most before between p q rel)
    (hf : ∀ a b, rel a b → Tracks limits most between after (f a) (g b) rel')
    : Tracks limits most before after (p >>= f) (q >>= g) rel' := by
  intro s calls hs hlength
  rcases hp s calls hs hlength with ⟨hs', a, new, hrun, hrel, hcourse⟩
  have hlength' : between.length ≤ most := by
    rw [← hs'.active_eq]
    exact hcourse.length_le_right
  rcases hf a _ hrel _ (calls ++ new) hs' hlength' with ⟨hs'', b, new', hrun', hrel', hcourse'⟩
  unfold Follows
  rw [Query.run_bind]
  refine ⟨hs'', b, new ++ new', ?_, hrel', hcourse.append hcourse'⟩
  rw [StateT.run_bind, hrun, ← List.append_assoc]
  exact hrun'

-- The comparison that ends is the one that started last.
theorem leave : Tracks limits most (key :: active) active (leave key) (Query.leave key) Eq := by
  intro s calls hs hlength
  have hs' : (s.guard.leave key).At limits active := hs.leave
  refine ⟨hs', (), [.leave key], rfl, rfl, .single ?_ ?_ ?_⟩
  . rwa [hs.active_eq]
  . rw [List.length_cons] at hlength
    have hactive : (s.guard.call (.leave key)).active = active := hs'.active_eq
    rw [hactive]
    omega
  . simp [Guard.balanced, Guard.isActive, hs.active_eq]

/--
A comparison that is refused leaves under way what was under way. One that is let in leaves it to
the rest of the query to end it.
-/
theorem enter_bind {f : Admission → Traced α} {g : Admission → Query β}
    (hmost : min limits.maxDepth Guard.maxActive ≤ most)
    (hrefused : ∀ a, a ≠ .entered → Tracks limits most active active (f a) (g a) rel)
    (hentered : active.length < min limits.maxDepth Guard.maxActive →
      Tracks limits most (key :: active) active (f .entered) (g .entered) rel)
    : Tracks limits most active active (enter key >>= f) (Query.enter key >>= g) rel := by
  intro s calls hs hlength
  -- What is common to the answers of the guard: the rest goes on with what is under way then.
  have hrest : ∀ {between}, (s.guard.enter key).2.At limits between → between.length ≤ most →
      Tracks limits most between active (f (s.guard.enter key).1) (g (s.guard.enter key).1) rel →
      Follows limits most active (enter key >>= f) (Query.enter key >>= g) rel s calls := by
    intro between hat hbetween hf
    have hcourse : s.guard.Course most [.enter key] (s.guard.enter key).2 :=
      .single (hs.active_eq ▸ hlength) (hat.active_eq ▸ hbetween) rfl
    rcases hf { s with guard := (s.guard.enter key).2 } (calls ++ [.enter key]) hat hbetween with
      ⟨hs', a, new, hrun, hrel, hcourse'⟩
    unfold Follows
    rw [Query.run_bind]
    refine ⟨hs', a, .enter key :: new, ?_, hrel, hcourse.append hcourse'⟩
    rw [List.append_cons]
    exact hrun
  rcases hs.enter_cases key with ⟨hlimit, hat, _⟩ | ⟨hcycle, _, hat, _⟩ | ⟨henter, hlt, hat, _⟩
  . apply hrest hat hlength
    apply hrefused
    intro henter
    rw [henter] at hlimit
    cases hlimit
  . apply hrest hat hlength
    rw [hcycle]
    exact hrefused .cycle nofun
  . apply hrest hat
    . rw [List.length_cons]
      omega
    . rw [henter]
      exact hentered hlt

end Tracks

/--
Traced queries that follow queries. The stages are the comparisons under way.
-/
def tracking (limits : Limits) (most : Nat) : StagedRelation Traced Query :=
  .fixed (List (String × String)) (fun active => Tracks limits most active active) Tracks.pure
    Tracks.bind

/--
The bound is beyond the room of a guard with these comparisons under way.
-/
def Ample (limits : Limits) (active : List (String × String)) (n : Nat) : Prop :=
  min limits.maxDepth Guard.maxActive - active.length < n

section Check

variable {limits : Limits} {most : Nat} {active : List (String × String)} {n : Nat}

theorem Ample.cons {key : String × String} (h : Ample limits active (n + 1))
    (hlt : active.length < min limits.maxDepth Guard.maxActive)
    : Ample limits (key :: active) n := by
  unfold Ample at *
  rw [List.length_cons]
  omega

theorem Ample.ne_zero (h : Ample limits active n) : n ≠ 0 :=
  Nat.ne_of_gt (Nat.zero_lt_of_lt h)

variable {ctx : Context} (hmost : min limits.maxDepth Guard.maxActive ≤ most)

include hmost in
theorem within_tracks {c d : Class} {p : Traced Bool} {q : Query Bool}
    (h : active.length < min limits.maxDepth Guard.maxActive →
      Tracks limits most ((c.name, d.name) :: active) ((c.name, d.name) :: active) p q Eq)
    : Tracks limits most active active ((checker ctx n).within c d p) (ctx.checker.within c d q)
        Eq := by
  apply Tracks.enter_bind hmost
  . intro admission hadmission
    cases admission with
    | entered => exact absurd rfl hadmission
    | cycle => exact Tracks.pure rfl
    | depthExceeded | iterationExceeded =>
      apply Tracks.bind (.of_spares (.of_finds (.note _)))
      exact fun _ _ _ => Tracks.pure rfl
  . intro hlt
    apply Tracks.bind (h hlt)
    rintro answer _ rfl
    exact Tracks.leave.bind fun _ _ _ => Tracks.pure rfl

variable [ctx.Quiet]

-- Bounds beyond the room of the guard make no difference: it refuses before they are reached.
def tracked : (checker ctx n).Correspondence ctx.checker where
  toStagedRelation := tracking limits most
  Sim _ := Eq
  Inside active key active' :=
    active' = key :: active ∧ active.length < min limits.maxDepth Guard.maxActive
  Fits active a b := Ample limits active a ∧ Ample limits active b
  similar h := h ▸ .refl _
  sim_later h _ := h
  sim_inside h _ := h
  fits_later := by
    rintro active _ a b h rfl
    exact h
  fits_inside := by
    rintro active _ key a b ⟨ha, hb⟩ ⟨rfl, hlt⟩
    exact ⟨ha.cons hlt, hb.cons hlt⟩
  fits_zero h := iff_of_false h.1.ne_zero h.2.ne_zero
  settle h := h ▸ .of_spares (.of_reads (Context.settle_reads _))
  hasAncestor h h' := h ▸ h' ▸ .of_spares (.of_reads (Context.anyAncestor_reads _ _))
  isInterface h := h ▸ .of_spares (.of_reads (Context.isInterface_reads _))
  ownMembers h := h ▸ .of_spares (.of_reads (Context.ownMembers_reads _))
  findMember name h := h ▸ .of_spares (.of_reads (Context.findMemberOf_reads _ name))
  infer m := by
    apply Tracks.weaken (.of_spares (.of_makes (ctx.infer_makes m)))
    rintro t _ rfl
    exact Ty.paired_self fun _ _ => rfl
  beyond h := absurd rfl h.1.ne_zero
  note e := Tracks.of_spares (.of_finds (.note e))
  within := by
    rintro active c _ d _ p q rfl rfl h
    exact within_tracks hmost fun hlt => h _ ⟨rfl, hlt⟩

omit [ctx.Quiet] in
theorem bound_tracks (hn : Ample limits active n)
    : Tracks limits most active active (checker ctx n).bound ctx.checker.bound
        fun a b => Ample limits active a ∧ Ample limits active b := by
  intro s calls hs hlength
  rw [← hs.active_eq] at hlength
  refine ⟨hs, n, [], ?_, ⟨hn, hs.room_lt⟩, .nil hlength⟩
  rw [List.append_nil]
  rfl

include hmost in
theorem isSubtype_tracks (hn : Ample limits active n) (source target : Ty Class) (strict : Bool)
    : Tracks limits most active active (isSubtype ctx n source target strict)
        (ctx.isSubtype source target strict) Eq :=
  (tracked hmost).isSubtype (bound_tracks hn) strict (Ty.paired_self fun _ _ => rfl)
    (Ty.paired_self fun _ _ => rfl)

end Check

end Traced

/--
The subtype check leaves under way what was under way. Its traced form comes to an end under any
bound on the nesting beyond the room of the guard, with the same answer and the same state. It ends
only comparisons that are under way, and there are never more of them than the depth limit allows,
or than there were before the check if these are more.
-/
theorem comparisons_ended (index : Index) (options : Options) (scope : Scope)
    (source target : Ty Class) (strict : Bool) (s : QueryState)
    (hdepth : s.guard.active.length = s.guard.depth)
    : let ctx : Context := { index, options, scope }
      let result := (ctx.isSubtype source target strict).run s
      result.2.guard.active = s.guard.active ∧ result.2.guard.depth = s.guard.depth ∧
        ∀ n, s.guard.room < n →
          ∃ calls,
            (Traced.isSubtype ctx n source target strict).run (s, []) =
              some (result.1, result.2, calls) ∧
            s.guard.Course (max s.guard.depth (min s.guard.limits.maxDepth Guard.maxActive)) calls
              result.2.guard := by
  intro ctx result
  have hat : s.guard.At s.guard.limits s.guard.active := ⟨rfl, rfl, hdepth.symm⟩
  have hfollow : ∀ n, s.guard.room < n →
      Traced.Follows s.guard.limits
        (max s.guard.depth (min s.guard.limits.maxDepth Guard.maxActive)) s.guard.active
        (Traced.isSubtype ctx n source target strict) (ctx.isSubtype source target strict) Eq s
        [] := by
    intro n hn
    have hample : Traced.Ample s.guard.limits s.guard.active n := by
      unfold Traced.Ample
      unfold Guard.room at hn
      rwa [hdepth]
    apply Traced.isSubtype_tracks (Nat.le_max_right _ _) hample source target strict s [] hat
    rw [hdepth]
    exact Nat.le_max_left _ _
  have hresult := (hfollow (s.guard.room + 1) (Nat.lt_succ_self _)).1
  refine ⟨hresult.active_eq, ?_, ?_⟩
  . rw [hresult.depth_eq, hdepth]
  . intro n hn
    rcases hfollow n hn with ⟨_, answer, calls, hrun, rfl, hcourse⟩
    exact ⟨calls, hrun, hcourse⟩

-- The comparison of the items leads back to itself while another one is under way.
theorem comparisons_ended_item_node
    : let ctx : Context := { index := .linked }
      let item : Ty Class := .cls (.referenceAt "Item" 0)
      let node : Ty Class := .cls (.referenceAt "Node" 1)
      let guard := { limits := ⟨3, 100⟩, active := [("Puppy", "Pet")], depth := 1 }
      let s : QueryState := { cellCount := 2, guard }
      let result := (ctx.isSubtype item node true).run s
      s.guard.active.length = s.guard.depth ∧ s.guard.room = 2 ∧
        (((Traced.isSubtype ctx 3 item node true).run (s, [])).map fun r => r.2.2) =
          some [.enter ("Item", "Node"), .enter ("Item", "Node"), .leave ("Item", "Node")] ∧
        result.2.guard.active = [("Puppy", "Pet")] ∧ result.2.guard.depth = 1 ∧
          ∃ calls,
            (Traced.isSubtype ctx 3 item node true).run (s, []) =
              some (result.1, result.2, calls) ∧
            s.guard.Course 3 calls result.2.guard := by
  intro ctx item node guard s result
  rcases comparisons_ended .linked {} .project item node true s rfl with ⟨hactive, hdepth, hfollow⟩
  exact ⟨rfl, rfl, by decide +kernel, hactive, hdepth, hfollow 3 (by decide)⟩

end LuaClasses
