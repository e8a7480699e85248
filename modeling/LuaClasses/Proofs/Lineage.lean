import LuaClasses.Proofs.Sight

/-!
This module contains the ancestors of a class as a list, and shows that the walks over them visit
this list. The list has two parts, the superclasses and the forest of interfaces; a visitor that
does not go on ends the part that it is in, and a repeated superclass leaves out the second part.
-/

namespace LuaClasses

theorem Pool.subset_of_pendingFrom {pool : Pool} {nameOf : α → String} {pending rest : List α}
    {a : α} (h : pool.pendingFrom nameOf pending = a :: rest)
    : a :: rest ⊆ pending := by
  rw [← h]
  exact (List.dropWhile_suffix _).subset

theorem Pool.mem_pendingFrom {pool : Pool} {nameOf : α → String} {pending : List α} {a : α}
    (ha : a ∈ pending) (hpool : nameOf a ∈ pool)
    : a ∈ pool.pendingFrom nameOf pending := by
  unfold pendingFrom
  induction pending with
  | nil => cases ha
  | cons b pending ih =>
    rw [List.dropWhile_cons]
    split
    . next hb =>
      rcases List.mem_cons.1 ha with rfl | ha
      . simp [hpool] at hb
      . exact ih ha
    . exact ha

namespace Context

def superclass? (ctx : Context) (c : Class) : Option Class :=
  match (ctx.knownHeader c).superName with
  | some name => if name = c.name then none else ctx.declared? name
  | none => none

/--
The interfaces that a class names and that are declared.
-/
def extended (ctx : Context) (c : Class) : List Class :=
  ((ctx.knownHeader c).interfaceNames.filter (· != c.name)).filterMap ctx.declared?

/--
The classes on a climb from `next`, and whether the climb ends at a class that was met before.
-/
def chain (ctx : Context) (pool : Pool) (next : Option Class) : List Class × Bool :=
  match next with
  | none => ([], false)
  | some c =>
    if _h : c.name ∈ pool then
      if (ctx.knownHeader c).isInterface then ([c], false)
      else
        let rest := chain ctx (pool.remove c.name) (ctx.superclass? c)
        (c :: rest.1, rest.2)
    else ([], true)
termination_by pool.length
decreasing_by exact Pool.length_remove_lt _h

/--
The pending interfaces and those that they extend, in depth-first order.
-/
def forest (ctx : Context) (pool : Pool) (pending : List Class) : List Class :=
  match _h : pool.pendingFrom Class.name pending with
  | [] => []
  | c :: rest => c :: forest ctx (pool.remove c.name) (ctx.extended c ++ rest)
termination_by pool.length
decreasing_by exact Pool.length_remove_lt (Pool.mem_of_pendingFrom _h)

/--
The superclasses of a class, and whether they end at a class that was met before.
-/
def superclasses (ctx : Context) (c : Class) : List Class × Bool :=
  ctx.chain (ctx.poolFrom c) (ctx.superclass? c)

def interfaceForest (ctx : Context) (c : Class) : List Class :=
  ctx.forest (ctx.poolFrom c) (ctx.extended c)

def lineage (ctx : Context) (c : Class) : List Class :=
  (ctx.superclasses c).1 ++ if (ctx.superclasses c).2 then [] else ctx.interfaceForest c

namespace Alike

variable {ctx : Context} {c d : Class} (h : ctx.Alike c d)

include h

theorem superclass?_eq : ctx.superclass? c = ctx.superclass? d := by
  unfold superclass?
  rw [h.knownHeader_eq, h.name_eq]

theorem extended_eq : ctx.extended c = ctx.extended d := by
  unfold extended
  rw [h.knownHeader_eq, h.name_eq]

theorem poolFrom_eq : ctx.poolFrom c = ctx.poolFrom d := by
  unfold poolFrom
  rw [h.name_eq]

theorem superclasses_eq : ctx.superclasses c = ctx.superclasses d := by
  unfold superclasses
  rw [h.poolFrom_eq, h.superclass?_eq]

theorem interfaceForest_eq : ctx.interfaceForest c = ctx.interfaceForest d := by
  unfold interfaceForest
  rw [h.poolFrom_eq, h.extended_eq]

theorem lineage_eq : ctx.lineage c = ctx.lineage d := by
  unfold lineage
  rw [h.superclasses_eq, h.interfaceForest_eq]

end Alike

section Closed

variable {ctx : Context} {a : Class} {p : Class → Prop}

/--
A climb stays inside every set of classes that is closed under superclasses.
-/
theorem chain_induct {pool : Pool} {next : Option Class} (hnext : ∀ c ∈ next, p c)
    (hclosed : ∀ c d, p c → (ctx.knownHeader c).isInterface = false → d ∈ ctx.superclass? c → p d)
    (ha : a ∈ (ctx.chain pool next).1)
    : p a := by
  fun_induction chain ctx pool next with
  | case1 => cases ha
  | case2 pool c =>
    rw [List.mem_singleton.1 ha]
    exact hnext c rfl
  | case3 pool c _ hinterface rest ih =>
    have hc := hnext c rfl
    rcases List.mem_cons.1 ha with rfl | ha
    . exact hc
    . exact ih (fun d => hclosed c d hc (by simpa using hinterface)) ha
  | case4 => cases ha

/--
A walk over interfaces stays inside every set of classes that is closed under the interfaces they
extend.
-/
theorem forest_induct {pool : Pool} {pending : List Class} (hpending : ∀ c ∈ pending, p c)
    (hclosed : ∀ c d, p c → d ∈ ctx.extended c → p d) (ha : a ∈ ctx.forest pool pending)
    : p a := by
  fun_induction forest ctx pool pending with
  | case1 => cases ha
  | case2 pool pending c rest hfrom ih =>
    have hsubset := Pool.subset_of_pendingFrom hfrom
    have hc := hpending c (hsubset List.mem_cons_self)
    rcases List.mem_cons.1 ha with rfl | ha
    . exact hc
    . apply ih _ ha
      intro d hd
      rcases List.mem_append.1 hd with hd | hd
      . exact hclosed c d hc hd
      . exact hpending d (hsubset (List.mem_cons_of_mem c hd))

end Closed

section Cells

variable {ctx : Context} {c a : Class}

theorem cell?_eq_none_of_superclass? (h : a ∈ ctx.superclass? c) : a.origin.cell? = none := by
  unfold superclass? at h
  split at h
  . split at h
    . cases h
    . exact cell?_eq_none_of_declared? h
  . cases h

theorem cell?_eq_none_of_mem_extended (h : a ∈ ctx.extended c) : a.origin.cell? = none := by
  rcases List.mem_filterMap.1 h with ⟨name, _, hname⟩
  exact cell?_eq_none_of_declared? hname

theorem cell?_eq_none_of_mem_superclasses (h : a ∈ (ctx.superclasses c).1)
    : a.origin.cell? = none :=
  chain_induct (fun _ => cell?_eq_none_of_superclass?)
    (fun _ _ _ _ => cell?_eq_none_of_superclass?) h

theorem cell?_eq_none_of_mem_interfaceForest (h : a ∈ ctx.interfaceForest c)
    : a.origin.cell? = none :=
  forest_induct (fun _ => cell?_eq_none_of_mem_extended)
    (fun _ _ _ => cell?_eq_none_of_mem_extended) h

theorem cell?_eq_none_of_mem_lineage (h : a ∈ ctx.lineage c) : a.origin.cell? = none := by
  rcases List.mem_append.1 h with h | h
  . exact cell?_eq_none_of_mem_superclasses h
  . split at h
    . cases h
    . exact cell?_eq_none_of_mem_interfaceForest h

end Cells

end Context

/--
Show classes to a visitor one after the other, as long as it goes on. The result is whether it went
on to the end.
-/
def visitAll (visit : Class → σ → Bool × σ) : List Class → σ → Bool × σ
  | [], state => (true, state)
  | c :: rest, state =>
    match visit c state with
    | (true, state) => visitAll visit rest state
    | (false, state) => (false, state)

theorem visitAll_append (f : Class → σ → Bool × σ) (cs ds : List Class) (state : σ)
    : visitAll f (cs ++ ds) state
        =
      match visitAll f cs state with
      | (true, state) => visitAll f ds state
      | (false, state) => (false, state) := by
  induction cs generalizing state with
  | nil => rfl
  | cons c cs ih =>
    simp only [List.cons_append, visitAll]
    split
    . apply ih
    . rfl

theorem visitAll_snd_of_refused {f : Class → σ → Bool × σ}
    (hkeep : ∀ c d state, (f c state).1 = false → f d (f c state).2 = (false, (f c state).2))
    {cs : List Class} {state state' : σ} (h : visitAll f cs state = (false, state'))
    (ds : List Class)
    : (visitAll f ds state').2 = state' := by
  induction cs generalizing state with
  | nil => cases h
  | cons c cs ih =>
    unfold visitAll at h
    split at h
    . exact ih h
    . next hc =>
      cases h
      cases ds with
      | nil => rfl
      | cons d ds =>
        have hd := hkeep c d state (by rw [hc])
        rw [hc] at hd
        simp only [visitAll, hd]

theorem visitAll_any (test : Class → Bool) (cs : List Class)
    : (visitAll (fun c found => (!(found || test c), found || test c)) cs false).2
        =
      cs.any test := by
  induction cs with
  | nil => rfl
  | cons c cs ih =>
    cases hc : test c with
    | false => simpa [visitAll, hc] using ih
    | true => simp [visitAll, hc]

theorem visitAll_foldl (g : Class → σ → σ) (cs : List Class) (state : σ)
    : visitAll (fun c state => (true, g c state)) cs state
        =
      (true, cs.foldl (fun state c => g c state) state) := by
  induction cs generalizing state with
  | nil => rfl
  | cons c cs ih => simp only [visitAll, ih, List.foldl_cons]

theorem visitAll_collect (cs : List Class)
    : visitAll (fun c seen => (true, seen ++ [c])) cs [] = (true, cs) := by
  simp [visitAll_foldl, ← List.flatMap_def]

namespace Context

open Query

variable {ctx : Context} [ctx.Quiet]

theorem isInterface_reads (c : Class)
    : ctx.Reads c (ctx.checker.isInterface c) fun d => (ctx.knownHeader d).isInterface :=
  (headerOf_reads c).bind fun _ _ => (Finds.pure _).knows

theorem superclass_reads (c : Class) : ctx.Reads c (ctx.superclass c) ctx.superclass? := by
  apply (headerOf_reads c).bind
  intro d hd
  apply Finds.knows
  unfold superclass?
  rw [hd.name_eq]
  cases (ctx.knownHeader d).superName with
  | none => exact Finds.pure none
  | some name =>
    dsimp only
    split
    . exact Finds.pure none
    . exact resolve_finds name

theorem resolveAll_finds (names : List String)
    : Finds (ctx.resolveAll names) (names.filterMap ctx.declared?) := by
  induction names with
  | nil => exact Finds.pure []
  | cons name rest ih =>
    have hcons : (name :: rest).filterMap ctx.declared?
        = (ctx.declared? name).toList ++ rest.filterMap ctx.declared? := by
      cases h : ctx.declared? name <;> simp [h]
    rw [hcons]
    exact Finds.bind (resolve_finds name) (Finds.bind ih (Finds.pure _))

theorem interfaces_reads (c : Class) : ctx.Reads c (ctx.interfaces c) ctx.extended := by
  apply (headerOf_reads c).bind
  intro d hd
  unfold extended
  rw [hd.name_eq]
  exact (resolveAll_finds _).knows

section Walk

variable {visit : Visitor σ} {f : Class → σ → Bool × σ}
  (hvisit : ∀ c state, c.origin.cell? = none → Finds ((visit c).run state) (f c state))

def climbEnd (f : Class → σ → Bool × σ) (chain : List Class × Bool) (state : σ) : ClimbEnd × σ :=
  match visitAll f chain.1 state with
  | (true, state) => (if chain.2 then .repeated else .top, state)
  | (false, state) => (.refused, state)

omit [ctx.Quiet] in
include hvisit in
theorem visit_finds {c : Class} (hcell : c.origin.cell? = none) {state : σ}
    {k : Bool → StateT σ Query α} {r : α × σ}
    (hgo : ∀ state', f c state = (true, state') → Finds ((k true).run state') r)
    (hstop : ∀ state', f c state = (false, state') → Finds ((k false).run state') r)
    : Finds ((visit c >>= k).run state) r := by
  have hc := hvisit c state hcell
  cases hf : f c state with
  | mk goesOn state' =>
    rw [hf] at hc
    apply Finds.run_bind hc
    cases goesOn with
    | true => exact hgo state' hf
    | false => exact hstop state' hf

include hvisit in
theorem climb_finds (start : Class) (pool : Pool) (next : Option Class)
    (hnext : ∀ c ∈ next, c.origin.cell? = none) (state : σ)
    : Finds ((ctx.climb start visit pool next).run state)
        (climbEnd f (ctx.chain pool next) state) := by
  fun_induction chain ctx pool next generalizing state with
  | case1 =>
    rw [climb]
    exact Finds.pure _
  | case2 pool c hpool hinterface =>
    have hcell := hnext c rfl
    rw [climb]
    simp only [dif_pos hpool]
    apply visit_finds hvisit hcell
    . intro state' hf
      apply Finds.run_bind (Finds.run_lift (ctx.header_finds hcell) state')
      simp only [hinterface, if_true, climbEnd, visitAll, hf]
      exact Finds.pure _
    . intro state' hf
      simp only [climbEnd, visitAll, hf]
      exact Finds.pure _
  | case3 pool c hpool hinterface rest ih =>
    have hcell := hnext c rfl
    rw [climb]
    simp only [dif_pos hpool]
    apply visit_finds hvisit hcell
    . intro state' hf
      apply Finds.run_bind (Finds.run_lift (ctx.header_finds hcell) state')
      have hsuper : Finds (ctx.superclass c) (ctx.superclass? c) := (superclass_reads c).finds hcell
      have hrest := ih (fun _ => cell?_eq_none_of_superclass?) state'
      simp only [hinterface, climbEnd, visitAll, hf] at hrest ⊢
      exact Finds.run_bind (Finds.run_lift hsuper state') hrest
    . intro state' hf
      simp only [climbEnd, visitAll, hf]
      exact Finds.pure _
  | case4 pool c hpool =>
    rw [climb]
    simp only [dif_neg hpool]
    exact Finds.run_bind (Finds.run_lift (Finds.note _) state) (Finds.pure _)

include hvisit in
theorem visitForest_finds (pool : Pool) (pending : List Class)
    (hpending : ∀ c ∈ pending, c.origin.cell? = none) (state : σ)
    : Finds ((ctx.visitForest visit pool pending).run state)
        (visitAll f (ctx.forest pool pending) state) := by
  fun_induction forest ctx pool pending generalizing state with
  | case1 pool pending hfrom =>
    rw [visitForest]
    split
    . exact Finds.pure _
    . next c rest hfrom' =>
      rw [hfrom] at hfrom'
      cases hfrom'
  | case2 pool pending c rest hfrom ih =>
    have hsubset := Pool.subset_of_pendingFrom hfrom
    have hcell := hpending c (hsubset List.mem_cons_self)
    rw [visitForest]
    split
    . next hfrom' =>
      rw [hfrom] at hfrom'
      cases hfrom'
    . next c' rest' hfrom' =>
      rw [hfrom] at hfrom'
      cases hfrom'
      apply visit_finds hvisit hcell
      . intro state' hf
        simp only [visitAll, hf]
        have hextended : Finds (ctx.interfaces c) (ctx.extended c) :=
          (interfaces_reads c).finds hcell
        apply Finds.run_bind (Finds.run_lift hextended state')
        apply ih
        intro b hb
        rcases List.mem_append.1 hb with hb | hb
        . exact cell?_eq_none_of_mem_extended hb
        . exact hpending b (hsubset (List.mem_cons_of_mem c hb))
      . intro state' hf
        simp only [visitAll, hf]
        exact Finds.pure _

include hvisit in
theorem walkInterfaces_reads (start : Class) (state : σ)
    : ctx.Reads start ((ctx.walkInterfaces start visit).run state)
        fun d => visitAll f (ctx.interfaceForest d) state := by
  apply (interfaces_reads start).lift_bind
  intro d hd
  unfold interfaceForest poolFrom
  rw [← hd.name_eq]
  exact (visitForest_finds hvisit _ _ (fun _ => cell?_eq_none_of_mem_extended) state).knows

/--
What a walk over the ancestors of a class does with a visitor.
-/
def walk (ctx : Context) (f : Class → σ → Bool × σ) (start : Class) (state : σ) : Bool × σ :=
  match climbEnd f (ctx.superclasses start) state with
  | (.top, state) => visitAll f (ctx.interfaceForest start) state
  | (.refused, state) => (false, (visitAll f (ctx.interfaceForest start) state).2)
  | (.repeated, state) => (true, state)

include hvisit in
theorem walkAncestors_reads (start : Class) (state : σ)
    : ctx.Reads start ((ctx.walkAncestors start visit).run state)
        fun d => ctx.walk f d state := by
  apply (superclass_reads start).lift_bind
  intro d hd
  have hpool : ctx.poolFrom d = ctx.poolFrom start := by
    unfold poolFrom
    rw [hd.name_eq]
  have hclimb : Finds ((ctx.climb start visit (ctx.poolFrom start) (ctx.superclass? d)).run state)
      (climbEnd f (ctx.superclasses d) state) := by
    unfold superclasses
    rw [hpool]
    exact climb_finds hvisit start _ _ (fun _ => cell?_eq_none_of_superclass?) state
  unfold walk
  cases hend : climbEnd f (ctx.superclasses d) state with
  | mk climbEnd state' =>
    rw [hend] at hclimb
    apply Knows.run_bind hclimb.knows
    have hinterfaces : ctx.Knows start d ((ctx.walkInterfaces start visit).run state')
        (visitAll f (ctx.interfaceForest d) state') :=
      (walkInterfaces_reads hvisit start state').knows d
    cases climbEnd with
    | top => exact hinterfaces
    | refused => exact Knows.run_bind hinterfaces (Finds.pure _).knows
    | repeated => exact (Finds.pure _).knows

end Walk

omit [ctx.Quiet] in
theorem Alike.walk_eq {c d : Class} (h : ctx.Alike c d) (f : Class → σ → Bool × σ) (state : σ)
    : ctx.walk f c state = ctx.walk f d state := by
  unfold walk
  rw [h.superclasses_eq, h.interfaceForest_eq]

omit [ctx.Quiet] in
/--
A visitor that keeps its state once it has refused a class sees the lineage as one list.
-/
theorem walk_snd (f : Class → σ → Bool × σ)
    (hkeep : ∀ c d state, (f c state).1 = false → f d (f c state).2 = (false, (f c state).2))
    (start : Class) (state : σ)
    : (ctx.walk f start state).2 = (visitAll f (ctx.lineage start) state).2 := by
  unfold walk climbEnd lineage
  rw [visitAll_append]
  cases hsupers : visitAll f (ctx.superclasses start).1 state with
  | mk goesOn state' =>
    cases goesOn with
    | true => cases (ctx.superclasses start).2 <;> rfl
    | false => exact visitAll_snd_of_refused hkeep hsupers _

theorem walkAncestors_state_reads {visit : Visitor σ} {f : Class → σ → Bool × σ}
    (hvisit : ∀ c state, c.origin.cell? = none → Finds ((visit c).run state) (f c state))
    (hkeep : ∀ c d state, (f c state).1 = false → f d (f c state).2 = (false, (f c state).2))
    (start : Class) (state : σ)
    : ctx.Reads start (do return (← (ctx.walkAncestors start visit).run state).2)
        fun d => (visitAll f (ctx.lineage d) state).2 := by
  simp only [← walk_snd f hkeep]
  apply (walkAncestors_reads hvisit start state).bind
  exact fun _ _ => (Finds.pure _).knows

theorem ancestors_reads (c : Class) : ctx.Reads c (ctx.ancestors c) ctx.lineage := by
  have hwalk : ctx.Reads c (ctx.ancestors c) _ :=
    walkAncestors_state_reads (fun _ _ _ => Finds.pure _) (by simp) c []
  simp only [visitAll_collect] at hwalk
  exact hwalk

theorem allInterfaces_reads (c : Class)
    : ctx.Reads c (ctx.allInterfaces c) ctx.interfaceForest := by
  apply (walkInterfaces_reads (fun _ _ _ => Finds.pure _) c []).bind
  intro d _
  rw [visitAll_collect]
  exact (Finds.pure _).knows

theorem anyAncestor_reads (c : Class) (test : Class → Bool)
    : ctx.Reads c (ctx.anyAncestor c test) fun d => (ctx.lineage d).any test := by
  simp only [← visitAll_any]
  apply walkAncestors_state_reads (fun _ _ _ => Finds.pure _) _ c false
  intro a b found hrefused
  have hfound : (found || test a) = true := by
    cases h : (found || test a) with
    | true => rfl
    | false => simp [h] at hrefused
  simp only [hfound, Bool.true_or, Bool.not_true]

end Context

end LuaClasses
