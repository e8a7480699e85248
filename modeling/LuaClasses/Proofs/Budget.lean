import LuaClasses.Proofs.Admission

/-!
This module contains the invariant of a guard over any run of checks that start and end, in whatever
order they end. The guard's record of what is under way agrees with its answers, its depth is the
number of checks under way, and its count of requests bounds how many checks it lets in before none
is under way again.
-/

namespace LuaClasses

namespace Guard

/--
How many checks asked to start.
-/
def requests (calls : List (Call κ)) : Nat :=
  calls.countP fun
    | .enter _ => true
    | .leave _ => false

section Log

variable [BEq κ]

/--
What the guard answers to a call. The end of a check has no answer.
-/
def answer (g : Guard κ) : Call κ → Option Admission
  | .enter key => some (g.enter key).1
  | .leave _ => none

/--
The calls with their answers.
-/
def log (g : Guard κ) : List (Call κ) → List (Call κ × Option Admission)
  | [] => []
  | c :: calls => (c, g.answer c) :: (g.call c).log calls

theorem log_append (g : Guard κ) (calls calls' : List (Call κ))
    : g.log (calls ++ calls') = g.log calls ++ (g.after calls).log calls' := by
  induction calls generalizing g with
  | nil => rfl
  | cons c calls ih => rw [List.cons_append, log, log, ih, List.cons_append, after_cons]

/--
Whether a check, once one is under way, is under way until the last of the calls.
-/
def Unbroken (g : Guard κ) (calls : List (Call κ)) : Prop :=
  ∀ k < calls.length, ∀ j < k,
    (g.after (calls.take j)).depth ≠ 0 → (g.after (calls.take k)).depth ≠ 0

instance (g : Guard κ) (calls : List (Call κ)) : Decidable (g.Unbroken calls) :=
  inferInstanceAs (Decidable (∀ k < calls.length, ∀ j < k,
    (g.after (calls.take j)).depth ≠ 0 → (g.after (calls.take k)).depth ≠ 0))

/--
Whether fewer checks than allowed have asked to start since some time when none was under way.
-/
def HasSpare (limits : Limits) (calls : List (Call κ)) : Prop :=
  ∃ before stretch, calls = before ++ stretch ∧ ((Guard.new limits).after before).depth = 0 ∧
    requests stretch < limits.maxIterations

end Log

/--
How many checks were let in.
-/
def entries (log : List (Call κ × Option Admission)) : Nat :=
  log.countP (·.2 == some .entered)

/--
Whether the check was let in and has not ended since it was let in last.
-/
def Unended (log : List (Call κ × Option Admission)) (key : κ) : Prop :=
  ∃ before after, log = before ++ (.enter key, some .entered) :: after ∧
    (.enter key, some .entered) ∉ after ∧ (.leave key, none) ∉ after

theorem unended_concat {log : List (Call κ × Option Admission)} {key : κ}
    {entry : Call κ × Option Admission}
    : Unended (log ++ [entry]) key ↔
        entry = (.enter key, some .entered) ∨ Unended log key ∧ entry ≠ (.leave key, none) := by
  constructor
  . rintro ⟨before, after, heq, hentered, hleft⟩
    rcases List.eq_nil_or_concat after with rfl | ⟨after, last, rfl⟩
    . rcases List.append_inj' heq rfl with ⟨_, hentry⟩
      exact .inl (List.singleton_inj.1 hentry)
    . rw [List.concat_eq_append] at heq hentered hleft
      rw [← List.cons_append, ← List.append_assoc] at heq
      rcases List.append_inj' heq rfl with ⟨hlog, hentry⟩
      cases List.singleton_inj.1 hentry
      simp only [List.mem_append, List.mem_singleton, not_or] at hentered hleft
      exact .inr ⟨⟨before, after, hlog, hentered.1, hleft.1⟩, fun h => hleft.2 h.symm⟩
  . rintro (rfl | ⟨⟨before, after, rfl, hentered, hleft⟩, hne⟩)
    . exact ⟨log, [], rfl, List.not_mem_nil, List.not_mem_nil⟩
    . by_cases hentry : entry = (.enter key, some .entered)
      . subst hentry
        exact ⟨_, [], rfl, List.not_mem_nil, List.not_mem_nil⟩
      . refine ⟨before, after ++ [entry], by simp, ?_, ?_⟩
        . simp only [List.mem_append, List.mem_singleton, not_or]
          exact ⟨hentered, fun h => hentry h.symm⟩
        . simp only [List.mem_append, List.mem_singleton, not_or]
          exact ⟨hleft, fun h => hne h.symm⟩

/--
A steady guard whose count starts anew when no check is under way, unless its limits let none in.
-/
structure Metered (limits : Limits) (g : Guard κ) : Prop extends g.Steady limits where
  iterations_eq : g.depth = 0 → g.iterations = 0 ∨ limits.Closed

section Step

variable [BEq κ] [LawfulBEq κ] {limits : Limits} {g : Guard κ} {key : κ}

omit [BEq κ] [LawfulBEq κ] in
theorem At.of_depth_eq_zero (h : g.At limits g.active) (hdepth : g.depth = 0)
    : g.At limits [] := by
  have hactive : g.active = [] := by
    rw [← List.length_eq_zero_iff, ← h.depth_eq, hdepth]
  rwa [hactive] at h

theorem isActive_iff : g.isActive key = true ↔ key ∈ g.active :=
  List.contains_iff_mem

theorem balanced_leave {calls : List (Call κ)}
    : g.balanced (.leave key :: calls) = true ↔
        key ∈ g.active ∧ (g.leave key).balanced calls = true := by
  rw [balanced, Bool.and_eq_true, isActive_iff]

theorem At.entered_iff (h : g.At limits g.active)
    : (g.enter key).1 = .entered ↔
        min (g.iterations + 1) maxCount ≤ limits.maxIterations ∧ key ∉ g.active ∧
        g.depth < min limits.maxDepth maxActive := by
  have hlength := h.depth_eq
  unfold enter
  dsimp only
  rw [h.limits_eq]
  split
  . next hiterations => exact iff_of_false nofun fun hall => Nat.not_le.2 hiterations hall.1
  . next hiterations =>
    split
    . next hdepth => exact iff_of_false nofun fun hall => by omega
    . next hdepth =>
      split
      . next hkey => exact iff_of_false nofun fun hall => hall.2.1 (List.contains_iff_mem.1 hkey)
      . next hkey =>
        split
        . next hfull => exact iff_of_false nofun fun hall => by omega
        . next hfull =>
          exact iff_of_true rfl
            ⟨Nat.not_lt.1 hiterations, fun hmem => hkey (List.contains_iff_mem.2 hmem), by omega⟩

theorem mem_active_call (h : g.Steady limits) (c : Call κ)
    : key ∈ (g.call c).active ↔
        (c, g.answer c) = (.enter key, some .entered) ∨
        key ∈ g.active ∧ (c, g.answer c) ≠ (.leave key, none) := by
  cases c with
  | enter key' =>
    by_cases hentered : (g.enter key').1 = .entered
    . have hactive := (h.toAt.enter_of_entered hentered).active_eq
      simp [call, answer, hactive, hentered, eq_comm]
    . have hactive := (h.toAt.enter_of_ne hentered).active_eq
      simp [call, answer, hactive, hentered]
  | leave key' =>
    have hactive : (g.leave key').active = g.active.erase key' := rfl
    simp [call, answer, hactive, h.nodup.mem_erase_iff, and_comm, eq_comm]

-- By induction on the end of the run: a call and its answer change both sides in the same way.
theorem mem_active_iff_unended {calls : List (Call κ)}
    (hbalanced : (Guard.new limits).balanced calls = true)
    : key ∈ ((Guard.new limits).after calls).active ↔
        Unended ((Guard.new limits).log calls) key := by
  rw [← List.reverse_reverse calls] at hbalanced ⊢
  generalize calls.reverse = reversed at hbalanced ⊢
  induction reversed with
  | nil =>
    refine iff_of_false List.not_mem_nil ?_
    rintro ⟨before, after, heq, _⟩
    exact absurd heq (by simp [log])
  | cons c rest ih =>
    rw [List.reverse_cons, balanced_append, Bool.and_eq_true] at hbalanced
    rw [List.reverse_cons, log_append, after_append]
    change key ∈ ((after _ _).call c).active ↔ Unended (_ ++ [(c, answer _ c)]) key
    rw [unended_concat, mem_active_call ((Steady.new limits).after hbalanced.1), ih hbalanced.1]

end Step

namespace Metered

variable [BEq κ] [LawfulBEq κ] {limits : Limits} {g : Guard κ} {key : κ}

omit [BEq κ] [LawfulBEq κ] in
theorem new (limits : Limits) : (Guard.new limits : Guard κ).Metered limits :=
  ⟨.new limits, fun _ => .inl rfl⟩

omit [LawfulBEq κ] in
theorem entered (h : g.Metered limits) (hopen : ¬limits.Closed) (hdepth : g.depth = 0) (key : κ)
    : (g.enter key).1 = .entered := by
  apply enter_of_not_closed (h.toAt.of_depth_eq_zero hdepth) _ hopen
  exact (h.iterations_eq hdepth).resolve_right hopen

-- With no check under way, only closed limits refuse one.
theorem enter (h : g.Metered limits) (key : κ) : (g.enter key).2.Metered limits := by
  refine ⟨h.toSteady.enter key, ?_⟩
  intro hdepth
  by_cases hentered : (g.enter key).1 = .entered
  . rw [(h.toAt.enter_of_entered hentered).depth_eq] at hdepth
    cases hdepth
  . rw [(h.toAt.enter_of_ne hentered).depth_eq, ← h.depth_eq] at hdepth
    by_cases hclosed : limits.Closed
    . exact .inr hclosed
    . exact absurd (h.entered hclosed hdepth key) hentered

theorem leave (h : g.Metered limits) (hactive : key ∈ g.active) : (g.leave key).Metered limits := by
  refine ⟨h.toSteady.leave hactive, ?_⟩
  intro hdepth
  exact .inl (if_pos hdepth)

theorem after (h : g.Metered limits) {calls : List (Call κ)} (hbalanced : g.balanced calls = true)
    : (g.after calls).Metered limits := by
  induction calls generalizing g with
  | nil => exact h
  | cons c calls ih =>
    rw [after_cons]
    cases c with
    | enter key => exact ih (h.enter key) hbalanced
    | leave key =>
      rcases balanced_leave.1 hbalanced with ⟨hactive, hrest⟩
      exact ih (h.leave hactive) hrest

end Metered

section Entries

variable [BEq κ]

theorem iterations_after_le (g : Guard κ) (calls : List (Call κ))
    : (g.after calls).iterations ≤ g.iterations + requests calls := by
  induction calls generalizing g with
  | nil => exact Nat.le_refl _
  | cons c calls ih =>
    have hrest := ih (g.call c)
    rw [after_cons]
    cases c with
    | enter key =>
      have hiterations : (g.call (.enter key)).iterations = _ := g.enter_iterations key
      have hrequests : requests (.enter key :: calls) = requests calls + 1 :=
        List.countP_cons_of_pos rfl
      omega
    | leave key =>
      have hiterations : (g.call (.leave key)).iterations ≤ g.iterations := by
        unfold call leave
        dsimp only
        split <;> omega
      have hrequests : requests (.leave key :: calls) = requests calls :=
        List.countP_cons_of_neg nofun
      omega

theorem entries_log_enter (g : Guard κ) (key : κ) (calls : List (Call κ))
    : entries (g.log (.enter key :: calls))
        =
      entries ((g.enter key).2.log calls) + if (g.enter key).1 = .entered then 1 else 0 := by
  simp [entries, log, answer, call, List.countP_cons]

theorem entries_log_leave (g : Guard κ) (key : κ) (calls : List (Call κ))
    : entries (g.log (.leave key :: calls)) = entries ((g.leave key).log calls) := by
  simp [entries, log, answer, call]

variable [LawfulBEq κ] {limits : Limits} {g : Guard κ}

theorem HasSpare.iterations_lt {calls : List (Call κ)} (h : HasSpare limits calls)
    (hbalanced : (Guard.new limits).balanced calls = true) (hmaxDepth : 0 < limits.maxDepth)
    : ((Guard.new limits).after calls).iterations < limits.maxIterations := by
  rcases h with ⟨before, stretch, rfl, hdepth, hrequests⟩
  have hopen : ¬limits.Closed := by
    unfold Limits.Closed
    omega
  rw [balanced_append, Bool.and_eq_true] at hbalanced
  have hmetered := (Metered.new limits).after hbalanced.1
  have hstart := (hmetered.iterations_eq hdepth).resolve_right hopen
  have hle := iterations_after_le ((Guard.new limits).after before) stretch
  rw [after_append]
  omega

theorem entered_iff_of_budget {calls : List (Call κ)} {key : κ}
    (hbalanced : (Guard.new limits).balanced calls = true)
    (hkey : key ∉ ((Guard.new limits).after calls).active)
    (hbudget : ((Guard.new limits).after calls).iterations < limits.maxIterations ∨
      HasSpare limits calls)
    : (((Guard.new limits).after calls).enter key).1 = .entered ↔
        ((Guard.new limits).after calls).depth < min limits.maxDepth maxActive := by
  rw [((Steady.new limits).after hbalanced).entered_iff]
  constructor
  . exact fun hall => hall.2.2
  . intro hroom
    have hcount : ((Guard.new limits).after calls).iterations < limits.maxIterations := by
      rcases hbudget with hcount | hspare
      . exact hcount
      . exact hspare.iterations_lt hbalanced (by omega)
    exact ⟨by omega, hkey, hroom⟩

theorem entries_of_closed (h : g.Metered limits) (hclosed : limits.Closed)
    {calls : List (Call κ)} (hbalanced : g.balanced calls = true)
    : entries (g.log calls) = 0 := by
  induction calls generalizing g with
  | nil => rfl
  | cons c calls ih =>
    cases c with
    | enter key =>
      have hrefused : (g.enter key).1 ≠ .entered := by
        rw [Ne, h.toAt.entered_iff]
        have hmax : 0 < maxCount := by decide
        unfold Limits.Closed at hclosed
        omega
      rw [entries_log_enter, ih (h.enter key) hbalanced, if_neg hrefused]
    | leave key =>
      rcases balanced_leave.1 hbalanced with ⟨hactive, hrest⟩
      rw [entries_log_leave, ih (h.leave hactive) hrest]

/--
While the count does not start anew, each check that is let in takes one from what is left of it.
Here `n` checks were let in before.
-/
theorem add_entries_le (h : g.Metered limits) (hlimits : limits.maxIterations < maxCount)
    {calls : List (Call κ)} (hbalanced : g.balanced calls = true)
    (hunder : ∀ k < calls.length, 0 < k → (g.after (calls.take k)).depth ≠ 0) {n : Nat}
    (hn : n ≤ g.iterations) (hle : n ≤ limits.maxIterations)
    : n + entries (g.log calls) ≤ limits.maxIterations := by
  induction calls generalizing g n with
  | nil => exact hle
  | cons c calls ih =>
    have hrest : ∀ k < calls.length, 0 < k → ((g.call c).after (calls.take k)).depth ≠ 0 := by
      intro k hk _
      exact hunder (k + 1) (Nat.succ_lt_succ hk) (Nat.succ_pos k)
    cases c with
    | enter key =>
      have hiterations := g.enter_iterations key
      rw [entries_log_enter]
      split
      . next hentered =>
        rcases h.toAt.entered_iff.1 hentered with ⟨hbudget, _⟩
        have hnext := ih (h.enter key) hbalanced hrest (n := n + 1) (by omega) (by omega)
        omega
      . exact ih (h.enter key) hbalanced hrest (by omega) hle
    | leave key =>
      rcases balanced_leave.1 hbalanced with ⟨hactive, hbalanced'⟩
      rw [entries_log_leave]
      cases calls with
      | nil => exact hle
      | cons c' calls' =>
        -- The end of a check that is not the last call leaves another one under way.
        have hdepth : (g.leave key).depth ≠ 0 := hunder 1 (by simp) Nat.one_pos
        have hcount : (g.leave key).iterations = g.iterations := if_neg hdepth
        exact ih (h.leave hactive) hbalanced' hrest (by omega) hle

theorem depth_ne_zero_of_unbroken (h : g.Metered limits) (hopen : ¬limits.Closed)
    (hdepth : g.depth = 0) {calls : List (Call κ)} (hbalanced : g.balanced calls = true)
    (hunbroken : g.Unbroken calls)
    : ∀ k < calls.length, 0 < k → (g.after (calls.take k)).depth ≠ 0 := by
  cases calls with
  | nil => exact fun k hk => absurd hk (Nat.not_lt_zero k)
  | cons c calls =>
    have hfirst : (g.call c).depth ≠ 0 := by
      cases c with
      | enter key =>
        have hentered := h.toAt.enter_of_entered (h.entered hopen hdepth key)
        rw [call, hentered.depth_eq]
        exact Nat.succ_ne_zero _
      | leave key =>
        have hactive := (balanced_leave.1 hbalanced).1
        rw [(h.toAt.of_depth_eq_zero hdepth).active_eq] at hactive
        cases hactive
    intro k hk hpos
    rcases Nat.eq_or_lt_of_le hpos with rfl | hlt
    . exact hfirst
    . exact hunbroken k hk 1 hlt hfirst

theorem entries_le (h : g.Metered limits) (hlimits : limits.maxIterations < maxCount)
    (hdepth : g.depth = 0) {calls : List (Call κ)} (hbalanced : g.balanced calls = true)
    (hunbroken : g.Unbroken calls)
    : entries (g.log calls) ≤ limits.maxIterations := by
  by_cases hclosed : limits.Closed
  . rw [entries_of_closed h hclosed hbalanced]
    exact Nat.zero_le _
  . have hunder := depth_ne_zero_of_unbroken h hclosed hdepth hbalanced hunbroken
    have hle := add_entries_le h hlimits hbalanced hunder (Nat.zero_le _) (Nat.zero_le _)
    rwa [Nat.zero_add] at hle

end Entries

end Guard

open Guard in
/--
After any run in which only checks under way end: the guard's depth is the number of checks under
way, and within its limits; a check is under way if it was let in and has not ended since; one that
is not is let in if the depth allows for it, as long as the count of requests does, be it the
guard's own count or that of the run; no more checks are let in than the count allows for until none
is under way again; and where none is, the next one is let in, unless the limits let none in at all.
-/
theorem guard_invariant [BEq κ] [LawfulBEq κ] (limits : Limits)
    (hlimits : limits.maxIterations < maxCount) (calls : List (Call κ))
    (hbalanced : (Guard.new limits).balanced calls = true)
    : let g := (Guard.new limits).after calls
      (g.active.Nodup ∧ g.active.length = g.depth ∧ g.depth ≤ min limits.maxDepth maxActive) ∧
      (∀ key, g.isActive key = true ↔ Unended ((Guard.new limits).log calls) key) ∧
      (∀ key, g.isActive key = false →
        g.iterations < limits.maxIterations ∨ HasSpare limits calls →
        ((g.enter key).1 = .entered ↔ g.depth < min limits.maxDepth maxActive)) ∧
      (∀ before stretch rest, calls = before ++ stretch ++ rest →
        let start := (Guard.new limits).after before
        start.depth = 0 → start.Unbroken stretch →
          entries (start.log stretch) ≤ limits.maxIterations) ∧
      (1 ≤ limits.maxDepth → 1 ≤ limits.maxIterations → g.depth = 0 →
        ∀ key, (g.enter key).1 = .entered) := by
  intro g
  have hmetered : g.Metered limits := (Metered.new limits).after hbalanced
  refine ⟨⟨hmetered.nodup, hmetered.depth_eq.symm, ?_⟩, ?_, ?_, ?_, ?_⟩
  . rw [hmetered.depth_eq]
    exact hmetered.length_le
  . intro key
    rw [isActive_iff, mem_active_iff_unended hbalanced]
  . intro key hinactive hbudget
    apply entered_iff_of_budget hbalanced _ hbudget
    rw [← isActive_iff, hinactive]
    nofun
  . rintro before stretch rest rfl start hdepth hunbroken
    rw [balanced_append, balanced_append, Bool.and_eq_true, Bool.and_eq_true] at hbalanced
    exact entries_le ((Metered.new limits).after hbalanced.1.1) hlimits hdepth hbalanced.1.2
      hunbroken
  . intro hmaxDepth hmaxIterations hdepth key
    apply hmetered.entered _ hdepth
    unfold Limits.Closed
    omega

/--
The third check is refused for its depth at first and let in after the first one has ended. All of
them end before a fourth check starts.
-/
theorem guard_invariant_refused
    : let calls := [.enter "a", .enter "b", .enter "c", .leave "a", .enter "c", .leave "b",
        .leave "c"]
      let g := (Guard.new ⟨2, 4⟩).after (calls ++ [.enter "d"])
      (Guard.new ⟨2, 4⟩).balanced (calls ++ [.enter "d"]) = true ∧
      g.active.length = g.depth ∧
      (g.isActive "d" = true ↔ Guard.Unended ((Guard.new ⟨2, 4⟩).log (calls ++ [.enter "d"])) "d") ∧
      Guard.HasSpare ⟨2, 4⟩ (calls ++ [.enter "d"]) ∧
      ((g.enter "e").1 = .entered ↔ g.depth < min 2 Guard.maxActive) ∧
      (Guard.new ⟨2, 4⟩).Unbroken calls ∧
      Guard.entries ((Guard.new ⟨2, 4⟩).log calls) = 3 ∧
      Guard.entries ((Guard.new ⟨2, 4⟩).log calls) ≤ 4 := by
  intro calls g
  have hunbroken : (Guard.new ⟨2, 4⟩).Unbroken calls := by decide
  have hspare : Guard.HasSpare ⟨2, 4⟩ (calls ++ [.enter "d"]) :=
    ⟨calls, [.enter "d"], rfl, by decide, by decide⟩
  rcases guard_invariant ⟨2, 4⟩ (by decide) (calls ++ [.enter "d"]) (by decide) with
    ⟨⟨_, hlength, _⟩, hactive, hentered, hentries, _⟩
  exact ⟨by decide, hlength, hactive "d", hspare, hentered "e" (by decide) (.inr hspare), hunbroken,
    by decide, hentries [] calls [.enter "d"] rfl rfl hunbroken⟩

end LuaClasses
