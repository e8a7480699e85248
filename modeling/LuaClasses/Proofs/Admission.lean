import LuaClasses.Proofs.Agreement

/-!
This module contains what a guard answers after any history of checks that start and end. The checks
under way are pairwise distinct and as many as the guard's depth, so a guard that is not full
notices every check that comes back to itself. A full guard does not: it compares the depth before
it looks at the checks under way.
-/

namespace LuaClasses

namespace Guard

/--
What is asked of a guard.
-/
inductive Call (κ : Type) where
  | enter (key : κ)
  | leave (key : κ)
  deriving DecidableEq, Repr

section Calls

variable [BEq κ]

def call (g : Guard κ) : Call κ → Guard κ
  | .enter key => (g.enter key).2
  | .leave key => g.leave key

def after (g : Guard κ) (calls : List (Call κ)) : Guard κ :=
  calls.foldl call g

/--
Whether every check that ends is under way at that time. Checks may end in any order.
-/
def balanced (g : Guard κ) : List (Call κ) → Bool
  | [] => true
  | .enter key :: calls => ((g.enter key).2).balanced calls
  | .leave key :: calls => g.isActive key && (g.leave key).balanced calls

/--
Whether one more check may ask to start before the count of checks hits its limit.
-/
def hasBudget (g : Guard κ) : Bool :=
  min (g.iterations + 1) maxCount ≤ g.limits.maxIterations

theorem after_cons (g : Guard κ) (c : Call κ) (calls : List (Call κ))
    : g.after (c :: calls) = (g.call c).after calls :=
  rfl

theorem after_append (g : Guard κ) (calls calls' : List (Call κ))
    : g.after (calls ++ calls') = (g.after calls).after calls' :=
  List.foldl_append

theorem balanced_append (g : Guard κ) (calls calls' : List (Call κ))
    : g.balanced (calls ++ calls') = (g.balanced calls && (g.after calls).balanced calls') := by
  induction calls generalizing g with
  | nil => rfl
  | cons c calls ih =>
    cases c with
    | enter key => exact ih _
    | leave key =>
      rw [List.cons_append, balanced, balanced, ih, Bool.and_assoc]
      rfl

end Calls

/--
The guard has these limits and keeps within them, and no check is under way twice.
-/
structure Steady (limits : Limits) (g : Guard κ) : Prop extends g.At limits g.active where
  nodup : g.active.Nodup
  length_le : g.active.length ≤ min limits.maxDepth maxActive

namespace Steady

variable {limits : Limits} {g : Guard κ} {key : κ}

theorem new (limits : Limits) : (Guard.new limits : Guard κ).Steady limits := by
  refine ⟨⟨rfl, rfl, rfl⟩, List.nodup_nil, ?_⟩
  exact Nat.zero_le _

theorem of_at {active : List κ} (h : g.At limits active) (hnodup : active.Nodup)
    (hle : active.length ≤ min limits.maxDepth maxActive)
    : g.Steady limits := by
  rcases h with ⟨hlimits, rfl, hdepth⟩
  exact ⟨⟨hlimits, rfl, hdepth⟩, hnodup, hle⟩

variable [BEq κ] [LawfulBEq κ]

theorem enter (h : g.Steady limits) (key : κ) : (g.enter key).2.Steady limits := by
  rcases h.enter_cases key with ⟨_, hat, _⟩ | ⟨_, _, hat, _⟩ | ⟨hentered, hlt, hat, _⟩
  . exact of_at hat h.nodup h.length_le
  . exact of_at hat h.nodup h.length_le
  . apply of_at hat
    . exact List.nodup_cons.2 ⟨h.not_mem_of_entered hentered, h.nodup⟩
    . rw [List.length_cons]
      omega

-- The check that ends need not be the one that started last.
theorem leave (h : g.Steady limits) (hactive : key ∈ g.active) : (g.leave key).Steady limits := by
  have hlength := List.length_erase_of_mem hactive
  have hat : (g.leave key).At limits (g.active.erase key) := by
    refine ⟨h.limits_eq, rfl, ?_⟩
    rw [hlength, ← h.depth_eq]
    rfl
  apply of_at hat
  . exact h.nodup.erase key
  . have hle := h.length_le
    omega

theorem after (h : g.Steady limits) {calls : List (Call κ)} (hbalanced : g.balanced calls = true)
    : (g.after calls).Steady limits := by
  induction calls generalizing g with
  | nil => exact h
  | cons c calls ih =>
    rw [after_cons]
    cases c with
    | enter key => exact ih (h.enter key) hbalanced
    | leave key =>
      rcases Bool.and_eq_true_iff.1 hbalanced with ⟨hactive, hrest⟩
      exact ih (h.leave (by simpa [isActive] using hactive)) hrest

end Steady

section Enter

variable [BEq κ] {limits : Limits} {g : Guard κ} {key : κ}

omit [BEq κ] in
theorem not_lt_of_hasBudget (h : g.hasBudget = true)
    : ¬g.limits.maxIterations < min (g.iterations + 1) maxCount := by
  exact Nat.not_lt.2 (of_decide_eq_true h)

theorem enter_of_full (h : g.At limits g.active) (hbudget : g.hasBudget = true)
    (hfull : g.depth = limits.maxDepth) (key : κ)
    : (g.enter key).1 = .depthExceeded ∧ (g.enter key).2.exceeded = true := by
  have hle : g.limits.maxDepth ≤ g.depth := by
    rw [h.limits_eq]
    exact Nat.le_of_eq hfull.symm
  unfold enter
  dsimp only
  rw [if_neg (not_lt_of_hasBudget hbudget), if_pos hle]
  exact ⟨rfl, rfl⟩

theorem enter_of_isActive (h : g.At limits g.active) (hbudget : g.hasBudget = true)
    (hroom : g.depth < limits.maxDepth) (hactive : g.isActive key = true)
    : (g.enter key).1 = .cycle ∧ (g.enter key).2.exceeded = g.exceeded := by
  have hlt : ¬g.limits.maxDepth ≤ g.depth := by
    rw [h.limits_eq]
    omega
  unfold isActive at hactive
  unfold enter
  dsimp only
  rw [if_neg (not_lt_of_hasBudget hbudget), if_neg hlt, if_pos hactive]
  exact ⟨rfl, rfl⟩

theorem le_depth_of_depthExceeded (h : g.At limits g.active)
    (hexceeded : (g.enter key).1 = .depthExceeded)
    : min limits.maxDepth maxActive ≤ g.depth := by
  unfold enter at hexceeded
  dsimp only at hexceeded
  rw [h.limits_eq] at hexceeded
  split at hexceeded
  . cases hexceeded
  . split at hexceeded
    . omega
    . split at hexceeded
      . cases hexceeded
      . split at hexceeded
        . next hlength =>
          rw [← h.depth_eq] at hlength
          omega
        . cases hexceeded

end Enter

end Guard

open Guard in
/--
After any balanced history and while the count of checks allows for one more, a check under way
that asks to start again is noticed as a cycle exactly if the guard's depth is below the limit. At
the limit it is refused for its depth, like any other. A check that is not under way is refused for
its depth only if it would be the last of too many distinct checks.
-/
theorem reentry_is_cycle_iff [BEq κ] [LawfulBEq κ] (limits : Limits) (calls : List (Call κ))
    (key : κ) (hbalanced : (Guard.new limits).balanced calls = true)
    (hbudget : ((Guard.new limits).after calls).hasBudget = true)
    : let g := (Guard.new limits).after calls
      (g.isActive key = true →
        ((g.enter key).1 = .cycle ∧ (g.enter key).2.exceeded = g.exceeded ↔
          g.depth < limits.maxDepth) ∧
        ((g.enter key).1 = .depthExceeded ∧ (g.enter key).2.exceeded = true ↔
          g.depth = limits.maxDepth)) ∧
      (g.isActive key = false → (g.enter key).1 = .depthExceeded →
        (key :: g.active).Nodup ∧ min limits.maxDepth maxActive < (key :: g.active).length) := by
  intro g
  have hsteady : g.Steady limits := (Steady.new limits).after hbalanced
  have hle : g.depth ≤ limits.maxDepth := by
    have hlength := hsteady.length_le
    rw [hsteady.depth_eq]
    omega
  constructor
  . intro hactive
    rcases Nat.lt_or_eq_of_le hle with hroom | hfull
    . have hcycle := enter_of_isActive hsteady.toAt hbudget hroom hactive
      refine ⟨iff_of_true hcycle hroom, iff_of_false ?_ (Nat.ne_of_lt hroom)⟩
      rw [hcycle.1]
      exact fun h => nomatch h.1
    . have hdeep := enter_of_full hsteady.toAt hbudget hfull key
      refine ⟨iff_of_false ?_ (Nat.not_lt.2 (Nat.le_of_eq hfull.symm)), iff_of_true hdeep hfull⟩
      rw [hdeep.1]
      exact fun h => nomatch h.1
  . intro hinactive hexceeded
    have hdepth := le_depth_of_depthExceeded hsteady.toAt hexceeded
    constructor
    . exact List.nodup_cons.2 ⟨by simpa [isActive] using hinactive, hsteady.nodup⟩
    . rw [List.length_cons, ← hsteady.depth_eq]
      omega

/--
The check that started first ends first. The guard has room for three checks, two are under way.
-/
theorem reentry_is_cycle_with_room
    : let calls := [.enter "a", .enter "b", .leave "a", .enter "c"]
      let g := (Guard.new ⟨3, 100⟩).after calls
      (Guard.new ⟨3, 100⟩).balanced calls = true ∧ g.hasBudget = true ∧
      g.isActive "b" = true ∧ g.depth < 3 ∧
      (g.enter "b").1 = .cycle ∧ (g.enter "b").2.exceeded = g.exceeded := by
  have h := reentry_is_cycle_iff ⟨3, 100⟩ [.enter "a", .enter "b", .leave "a", .enter "c"] "b"
    (by decide) (by decide)
  exact ⟨by decide, by decide, by decide, by decide, (h.1 (by decide)).1.2 (by decide)⟩

/--
A guard with room for one check takes the check that comes back to itself for one too deep.
-/
theorem reentry_refused_as_too_deep
    : let g := (Guard.new ⟨1, 10⟩).after [.enter "a"]
      (Guard.new ⟨1, 10⟩).balanced [.enter "a"] = true ∧ g.hasBudget = true ∧
      g.isActive "a" = true ∧ g.exceeded = false ∧
      (g.enter "a").1 = .depthExceeded ∧ (g.enter "a").2.exceeded = true := by
  decide

end LuaClasses
