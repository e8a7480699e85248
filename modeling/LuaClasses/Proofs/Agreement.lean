import LuaClasses.Proofs.Guarded

/-!
This module contains the proof that a subtype check leaves nothing behind in the guard that a later
check could notice. The guard keeps record of a limit that was hit, but no check reads it, and the
count of comparisons starts anew when none is under way.
-/

namespace LuaClasses

/--
Whether the limits let no comparison start at all.
-/
def Limits.Closed (limits : Limits) : Prop :=
  limits.maxDepth = 0 ∨ limits.maxIterations = 0

namespace Guard

/--
The guard has these limits, these comparisons are under way, and if there are none then all of the
limits is left.
-/
structure Ready (limits : Limits) (active : List κ) (g : Guard κ) : Prop extends
    g.At limits active where
  iterations_eq : active = [] → g.iterations = 0 ∨ limits.Closed

/--
Two guards that no check can tell apart while these comparisons are under way.
-/
structure Alike (limits : Limits) (active : List κ) (g g' : Guard κ) : Prop where
  left : g.Ready limits active
  right : g'.Ready limits active
  iterations_eq : active ≠ [] → g.iterations = g'.iterations

theorem ready_new (limits : Limits) : (new limits).Ready limits ([] : List κ) :=
  ⟨⟨rfl, rfl, rfl⟩, fun _ => .inl rfl⟩

section Enter

variable [BEq κ] {limits : Limits} {active : List κ} {g g' : Guard κ}

theorem enter_iterations (g : Guard κ) (key : κ)
    : (g.enter key).2.iterations = min (g.iterations + 1) maxCount := by
  unfold enter
  dsimp only
  split
  . rfl
  . split
    . rfl
    . split
      . rfl
      . split <;> rfl

theorem enter_fst_eq (h : g.At limits active) (h' : g'.At limits active)
    (hiterations : g.iterations = g'.iterations) (key : κ)
    : (g.enter key).1 = (g'.enter key).1 := by
  unfold enter
  dsimp only
  rw [h.limits_eq, h.active_eq, h.depth_eq, hiterations, h'.limits_eq, h'.active_eq, h'.depth_eq]
  split
  . rfl
  . split
    . rfl
    . split
      . rfl
      . split <;> rfl

theorem enter_of_closed (h : g.At limits []) (hclosed : limits.Closed) (key : κ)
    : (g.enter key).1.isExceeded = true := by
  have hcount : 0 < min (g.iterations + 1) maxCount := by
    have hmax : 0 < maxCount := by decide
    omega
  unfold enter
  dsimp only
  rw [h.limits_eq, h.depth_eq]
  split
  . rfl
  . next hiterations =>
    split
    . rfl
    . next hdepth =>
      rcases hclosed with hclosed | hclosed
      . simp [hclosed] at hdepth
      . omega

theorem enter_of_not_closed (h : g.At limits []) (hiterations : g.iterations = 0)
    (hopen : ¬limits.Closed) (key : κ)
    : (g.enter key).1 = .entered := by
  have hcount : min (0 + 1) maxCount = 1 := by decide
  unfold Limits.Closed at hopen
  unfold enter
  dsimp only
  rw [h.limits_eq, h.depth_eq, h.active_eq, hiterations, hcount]
  rw [if_neg (by omega), if_neg (by simp; omega), if_neg (by simp), if_neg (by simp [maxActive])]

end Enter

section At

variable [BEq κ] [LawfulBEq κ] {limits : Limits} {active : List κ} {g : Guard κ} {key : κ}

theorem At.enter_of_ne (h : g.At limits active) (hne : (g.enter key).1 ≠ .entered)
    : (g.enter key).2.At limits active := by
  rcases h.enter_cases key with ⟨_, hat, _⟩ | ⟨_, _, hat, _⟩ | ⟨hentered, _⟩
  . exact hat
  . exact hat
  . exact absurd hentered hne

theorem At.enter_of_entered (h : g.At limits active) (hentered : (g.enter key).1 = .entered)
    : (g.enter key).2.At limits (key :: active) := by
  rcases h.enter_cases key with ⟨hlimit, _⟩ | ⟨hcycle, _⟩ | ⟨_, _, hat, _⟩
  . rw [hentered] at hlimit
    cases hlimit
  . rw [hentered] at hcycle
    cases hcycle
  . exact hat

end At

namespace Alike

variable [BEq κ] [LawfulBEq κ] {limits : Limits} {active : List κ} {g g' : Guard κ}

theorem enter_of_closed (h : Alike limits [] g g') (hclosed : limits.Closed) (key : κ)
    : Alike limits [] (g.enter key).2 (g'.enter key).2 := by
  have hready : ∀ {g : Guard κ}, g.At limits [] → (g.enter key).2.Ready limits [] := by
    intro g hg
    have hlimit := Guard.enter_of_closed hg hclosed key
    refine ⟨hg.enter_of_ne ?_, fun _ => .inr hclosed⟩
    intro hentered
    rw [hentered] at hlimit
    cases hlimit
  exact ⟨hready h.left.toAt, hready h.right.toAt, nofun⟩

omit [BEq κ] [LawfulBEq κ] in
theorem iterations_eq_of_not_closed (h : Alike limits active g g')
    (hopen : ¬(active = [] ∧ limits.Closed))
    : g.iterations = g'.iterations := by
  by_cases hactive : active = []
  . simp only [hactive, true_and] at hopen
    rw [(h.left.iterations_eq hactive).resolve_right hopen,
      (h.right.iterations_eq hactive).resolve_right hopen]
  . exact h.iterations_eq hactive

theorem enter_cases (h : Alike limits active g g') (key : κ)
    : ((g.enter key).1.isExceeded = true ∧ (g'.enter key).1.isExceeded = true ∧
        Alike limits active (g.enter key).2 (g'.enter key).2) ∨
      ((g.enter key).1 = .cycle ∧ (g'.enter key).1 = .cycle ∧
        Alike limits active (g.enter key).2 (g'.enter key).2) ∨
      ((g.enter key).1 = .entered ∧ (g'.enter key).1 = .entered ∧
        Alike limits (key :: active) (g.enter key).2 (g'.enter key).2) := by
  -- Closed limits refuse every key, whatever the guards have counted: they need not agree then.
  by_cases hclosed : active = [] ∧ limits.Closed
  . rcases hclosed with ⟨rfl, hclosed⟩
    exact .inl ⟨Guard.enter_of_closed h.left.toAt hclosed key,
      Guard.enter_of_closed h.right.toAt hclosed key, h.enter_of_closed hclosed key⟩
  . have hiterations := h.iterations_eq_of_not_closed hclosed
    have hadmission := enter_fst_eq h.left.toAt h.right.toAt hiterations key
    have hafter : (g.enter key).2.iterations = (g'.enter key).2.iterations := by
      rw [enter_iterations, enter_iterations, hiterations]
    rw [← hadmission]
    by_cases hentered : (g.enter key).1 = .entered
    . have hg := h.left.toAt.enter_of_entered hentered
      have hg' := h.right.toAt.enter_of_entered (hadmission ▸ hentered)
      exact .inr (.inr ⟨hentered, hentered, ⟨hg, nofun⟩, ⟨hg', nofun⟩, fun _ => hafter⟩)
    -- Open limits let in the first comparison, so a refused one is inside another.
    . have hactive : active ≠ [] := by
        intro hactive
        subst hactive
        have hopen : ¬limits.Closed := fun h => hclosed ⟨rfl, h⟩
        exact hentered (enter_of_not_closed h.left.toAt
          ((h.left.iterations_eq rfl).resolve_right hopen) hopen key)
      have hg := h.left.toAt.enter_of_ne hentered
      have hg' := h.right.toAt.enter_of_ne (hadmission ▸ hentered)
      have halike : Alike limits active (g.enter key).2 (g'.enter key).2 :=
        ⟨⟨hg, fun h => absurd h hactive⟩, ⟨hg', fun h => absurd h hactive⟩, fun _ => hafter⟩
      cases hcase : (g.enter key).1 with
      | entered => exact absurd hcase hentered
      | cycle => exact .inr (.inl ⟨rfl, rfl, halike⟩)
      | depthExceeded | iterationExceeded => exact .inl ⟨rfl, rfl, halike⟩

theorem leave {key : κ} (h : Alike limits (key :: active) g g')
    : Alike limits active (g.leave key) (g'.leave key) := by
  have hdepth := h.left.depth_eq
  have hdepth' := h.right.depth_eq
  have hiterations := h.iterations_eq nofun
  rw [List.length_cons] at hdepth hdepth'
  have hempty : ∀ {g : Guard κ}, g.depth = active.length + 1 → active = [] →
      (g.leave key).iterations = 0 := by
    intro g hg hactive
    simp [Guard.leave, hg, hactive]
  refine ⟨⟨h.left.toAt.leave, fun hactive => .inl (hempty hdepth hactive)⟩,
    ⟨h.right.toAt.leave, fun hactive => .inl (hempty hdepth' hactive)⟩, ?_⟩
  intro hactive
  simp [Guard.leave, hdepth, hdepth', hiterations]

end Alike

end Guard

namespace Guarded

/--
Checks are related that answer alike for guards that are alike, and leave them alike. The stages are
the comparisons under way.
-/
def agreement (limits : Limits) : StagedRelation Guarded Guarded :=
  .fixed (List (String × String))
    (fun active p p' rel => ∀ g g', Guard.Alike limits active g g' →
      rel (p.run g).1 (p'.run g').1 ∧ Guard.Alike limits active (p.run g).2 (p'.run g').2)
    (fun h _ _ halike => ⟨h, halike⟩)
    (by
      intro _ _ _ _ active p p' f f' _ _ hp hf g g' h
      rcases hp g g' h with ⟨hanswer, halike⟩
      exact hf _ _ hanswer _ _ halike)

/--
The checks give the same answer for guards that are alike, and leave them alike.
-/
abbrev Agree (limits : Limits) (active : List (String × String)) (p p' : Guarded α) : Prop :=
  (agreement limits).Same active p p'

section Check

variable (ctx : Context) {limits : Limits} {active : List (String × String)}

theorem within_agree {c c' d d' : Class} (hc : c.name = c'.name) (hd : d.name = d'.name)
    {p p' : Guarded Bool} (hp : Agree limits ((c.name, d.name) :: active) p p')
    : Agree limits active ((checker ctx).within c d p) ((checker ctx).within c' d' p') := by
  have hwithin : (checker ctx).within c' d' p' = (checker ctx).within c d p' := by
    unfold Checker.within
    rw [hc, hd]
  rw [hwithin]
  intro g g' h
  rcases h.enter_cases (c.name, d.name) with ⟨hg, hg', halike⟩ | ⟨hg, hg', halike⟩ |
    ⟨hg, hg', halike⟩
  . rw [within_run_of_isExceeded p hg, within_run_of_isExceeded p' hg']
    exact ⟨rfl, halike⟩
  . rw [within_run_of_cycle p hg, within_run_of_cycle p' hg']
    exact ⟨rfl, halike⟩
  . rw [within_run_of_entered p hg, within_run_of_entered p' hg']
    rcases hp _ _ halike with ⟨hanswer, hafter⟩
    exact ⟨hanswer, hafter.leave⟩

theorem bound_agree : Agree limits active (checker ctx).bound (checker ctx).bound := by
  intro g g' h
  have hroom : g.room = g'.room := by
    unfold Guard.room
    rw [h.left.limits_eq, h.right.limits_eq, h.left.depth_eq, h.right.depth_eq]
  exact ⟨congrArg (· + 1) hroom, h⟩

-- A check is compared with itself. The guard could make a difference, and so could the cells of
-- classes that the index says the same about.
def steady (limits : Limits) : (checker ctx).Correspondence (checker ctx) where
  toStagedRelation := agreement limits
  Sim _ := ctx.Alike
  Inside active key active' := active' = key :: active
  Fits _ := Eq
  similar h := h.toSimilar
  sim_later h _ := h
  sim_inside h _ := h
  fits_later h _ := h
  fits_inside h _ := Nat.succ.inj h
  fits_zero h := h ▸ Iff.rfl
  settle _ := .pure ()
  hasAncestor {active c c' d d'} hc hd := by
    have hbeq : (ctx.lineage c).any (· == d) = (ctx.lineage c').any (· == d') := by
      simp only [hc.lineage_eq, fun a => (Class.Similar.refl a).beq_eq hd.toSimilar]
    exact (agreement limits).pure fun _ _ => hbeq
  isInterface h := (agreement limits).pure fun _ _ => by rw [h.knownHeader_eq]
  ownMembers h := (agreement limits).pure fun _ _ => h.ownMemberList_eq
  findMember name h := (agreement limits).pure fun _ _ => h.member?_eq name
  infer m := (agreement limits).pure fun _ _ => ctx.paired_alike _
  beyond _ := .pure false
  note _ := .pure ()
  within hc hd hp := within_agree ctx hc.name_eq hd.name_eq (hp _ rfl)

variable {ctx} {source source' target target' : Ty Class} (strict : Bool)
  (hsource : source.Paired ctx.Alike source') (htarget : target.Paired ctx.Alike target')

include hsource htarget

theorem subtype_agree (room : Nat)
    : Agree limits active ((checker ctx).subtype strict room source target)
        ((checker ctx).subtype strict room source' target') :=
  (steady ctx limits).subtype strict rfl hsource htarget

theorem isSubtype_agree
    : Agree limits active (isSubtype ctx source target strict)
        (isSubtype ctx source' target' strict) :=
  (steady ctx limits).isSubtype (bound_agree ctx) strict hsource htarget

omit hsource in
theorem isSubclass_agree {c c' : Class} (hc : ctx.Alike c c')
    : Agree limits active (isSubclass ctx c target strict) (isSubclass ctx c' target' strict) :=
  (steady ctx limits).isSubclass (bound_agree ctx) strict hc htarget

end Check

end Guarded

end LuaClasses
