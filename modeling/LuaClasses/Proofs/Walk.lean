import LuaClasses.Proofs.Lookup
import Mathlib.Data.List.Chain

/-!
This module contains the shape of the walk over the ancestors of a class, as its visitor sees it:
the calls on a climb along the superclasses, which can end in several ways, then the calls on the
interfaces. No graph of classes, however cyclic, leads the walk to a class twice on the climb or
twice among the interfaces, but a class that is both a superclass and an interface is met twice.
-/

namespace LuaClasses

/--
Ask `f` about a class, and keep record of the call and its answer.
-/
def recordCall (f : Class → σ → Bool × σ) (c : Class) (state : σ × List (Class × Bool)) :
    Bool × σ × List (Class × Bool) :=
  ((f c state.1).1, (f c state.1).2, state.2 ++ [(c, (f c state.1).1)])

/--
The visitor that answers what `f` answers, and keeps record of its calls.
-/
def Visitor.recorded (f : Class → σ → Bool × σ) : Visitor (σ × List (Class × Bool)) :=
  fun c => modifyGet (recordCall f c)

/--
The calls of a visitor that is shown a list of classes up to the first one that it refuses.
-/
inductive Cut : List Class → List (Class × Bool) → Prop where
  | nil : Cut [] []
  | refused {c rest} : Cut (c :: rest) [(c, false)]
  | goesOn {c rest calls} : Cut rest calls → Cut (c :: rest) ((c, true) :: calls)

theorem Cut.isPrefix {cs : List Class} {calls : List (Class × Bool)} (h : Cut cs calls)
    : calls.map (·.1) <+: cs := by
  induction h with
  | nil => exact List.prefix_refl []
  | refused => exact List.cons_prefix_cons.2 ⟨rfl, List.nil_prefix⟩
  | goesOn _ ih => exact List.cons_prefix_cons.2 ⟨rfl, ih⟩

theorem Cut.of_goesOn (cs : List Class) : Cut cs (cs.map (·, true)) := by
  induction cs with
  | nil => exact .nil
  | cons c rest ih => exact .goesOn ih

theorem visitAll_recorded (f : Class → σ → Bool × σ) (cs : List Class) (state : σ)
    (calls : List (Class × Bool))
    : ∃ state' more, Cut cs more ∧
        visitAll (recordCall f) cs (state, calls) = (more.all (·.2), state', calls ++ more) := by
  induction cs generalizing state calls with
  | nil => exact ⟨state, [], .nil, by simp [visitAll]⟩
  | cons c rest ih =>
    unfold visitAll
    cases hc : f c state with
    | mk goesOn state' =>
      cases goesOn with
      | false =>
        refine ⟨state', [(c, false)], .refused, ?_⟩
        simp [recordCall, hc]
      | true =>
        rcases ih state' (calls ++ [(c, true)]) with ⟨state'', more, hmore, heq⟩
        refine ⟨state'', (c, true) :: more, .goesOn hmore, ?_⟩
        simp [recordCall, hc, heq]

section Climb

variable (superOf : Class → Option Class) (isInterface : Class → Bool)

/--
The calls on a climb from a class, where `visited` are the names met before, and how it ends.
-/
inductive Climbs : List String → Class → List (Class × Bool) → ClimbEnd → Prop where
  | root {visited c} : superOf c = none → Climbs visited c [] .top
  | repeated {visited c d} : superOf c = some d → d.name ∈ visited → Climbs visited c [] .repeated
  | refused {visited c d} : superOf c = some d → d.name ∉ visited →
      Climbs visited c [(d, false)] .refused
  | interface {visited c d} : superOf c = some d → d.name ∉ visited → isInterface d = true →
      Climbs visited c [(d, true)] .top
  | next {visited c d calls e} : superOf c = some d → d.name ∉ visited → isInterface d = false →
      Climbs (d.name :: visited) d calls e → Climbs visited c ((d, true) :: calls) e

/--
What is the case where a climb from a class ends after the given calls, where `visited` are the
names met before them.
-/
def EndsWith (visited : List String) (c : Class) (calls : List (Class × Bool)) :
    ClimbEnd → Prop
  | .top => (∀ call ∈ calls, call.2 = true) ∧
      ((∃ call ∈ calls.getLast?, isInterface call.1 = true) ∨
        superOf ((calls.map (·.1)).getLastD c) = none)
  | .refused => ∃ d, calls.getLast? = some (d, false)
  | .repeated => (∀ call ∈ calls, call.2 = true ∧ isInterface call.1 = false) ∧
      ∃ d, superOf ((calls.map (·.1)).getLastD c) = some d ∧
        d.name ∈ visited ++ calls.map (·.1.name)

/--
A climb along the superclasses of `start`: it follows the links from class to class, meets no name
twice, and goes on as long as nothing ends it.
-/
structure IsClimb (start : Class) (calls : List (Class × Bool)) (e : ClimbEnd) : Prop where
  linked : (start :: calls.map (·.1)).IsChain fun a b => superOf a = some b
  nodup : ((start :: calls.map (·.1)).map Class.name).Nodup
  goesOn : ∀ call ∈ calls.dropLast, call.2 = true ∧ isInterface call.1 = false
  ended : EndsWith superOf isInterface [start.name] start calls e

variable {superOf isInterface} {visited : List String} {c : Class} {calls : List (Class × Bool)}
  {e : ClimbEnd}

namespace Climbs

theorem linked (h : Climbs superOf isInterface visited c calls e)
    : (c :: calls.map (·.1)).IsChain fun a b => superOf a = some b := by
  induction h with
  | root | repeated => exact .singleton _
  | refused hsuper | interface hsuper => exact .cons_cons hsuper (.singleton _)
  | next hsuper _ _ _ ih => exact .cons_cons hsuper ih

theorem nodup (h : Climbs superOf isInterface visited c calls e)
    : (calls.map (·.1.name)).Nodup ∧ ∀ call ∈ calls, call.1.name ∉ visited := by
  induction h with
  | root | repeated => simp
  | refused _ hd | interface _ hd => simpa using hd
  | next _ hd _ _ ih =>
    rcases ih with ⟨hnodup, hnew⟩
    simp only [List.mem_cons, not_or] at hnew
    simp only [List.map_cons, List.nodup_cons, List.mem_map, List.forall_mem_cons]
    refine ⟨⟨?_, hnodup⟩, hd, fun call hcall => (hnew call hcall).2⟩
    rintro ⟨call, hcall, heq⟩
    exact (hnew call hcall).1 heq

theorem goesOn (h : Climbs superOf isInterface visited c calls e)
    : ∀ call ∈ calls.dropLast, call.2 = true ∧ isInterface call.1 = false := by
  induction h with
  | root | repeated | refused | interface => simp
  | @next _ _ d calls _ _ _ hd _ ih =>
    cases calls with
    | nil => simp
    | cons call rest => simpa [hd] using ih

theorem ended (h : Climbs superOf isInterface visited c calls e)
    : EndsWith superOf isInterface visited c calls e := by
  induction h with
  | root hsuper => exact ⟨nofun, .inr hsuper⟩
  | repeated hsuper hd => exact ⟨nofun, _, hsuper, by simpa using hd⟩
  | refused => exact ⟨_, rfl⟩
  | interface _ _ hd => exact ⟨by simp, .inl ⟨_, rfl, hd⟩⟩
  | @next _ _ d calls e _ _ hd _ ih =>
    have hlast : ∀ call, calls.getLast? = some call →
        ((d, true) :: calls).getLast? = some call := by
      intro call hcall
      simp [List.getLast?_cons, hcall]
    have hlast' : ∀ c, (((d, true) :: calls).map (·.1)).getLastD c
        = (calls.map (·.1)).getLastD d := by
      intro c
      rw [List.map_cons, List.getLastD_cons]
    cases e with
    | top =>
      rcases ih with ⟨hall, hend⟩
      refine ⟨by simpa using hall, ?_⟩
      rcases hend with ⟨call, hcall, hinterface⟩ | hsuper
      . exact .inl ⟨call, hlast call hcall, hinterface⟩
      . exact .inr (hlast' _ ▸ hsuper)
    | refused =>
      rcases ih with ⟨a, ha⟩
      exact ⟨a, hlast _ ha⟩
    | repeated =>
      rcases ih with ⟨hall, a, hsuper, ha⟩
      refine ⟨by simpa [hd] using hall, a, hlast' _ ▸ hsuper, ?_⟩
      simp only [List.cons_append, List.mem_cons, List.mem_append, List.map_cons] at ha ⊢
      rcases ha with ha | ha | ha
      . exact .inr (.inl ha)
      . exact .inl ha
      . exact .inr (.inr ha)

theorem isClimb (h : Climbs superOf isInterface [c.name] c calls e)
    : IsClimb superOf isInterface c calls e := by
  refine ⟨h.linked, ?_, h.goesOn, h.ended⟩
  rcases h.nodup with ⟨hnodup, hnew⟩
  simp only [List.mem_singleton] at hnew
  simp only [List.map_cons, List.map_map, List.nodup_cons, List.mem_map]
  refine ⟨?_, hnodup⟩
  rintro ⟨call, hcall, heq⟩
  exact hnew call hcall heq

end Climbs

end Climb

namespace Context

variable {ctx : Context}

theorem name_mem_classNames_of_declared? {name : String} {c : Class} (h : c ∈ ctx.declared? name)
    : c.name ∈ ctx.index.classNames := by
  rcases Option.map_eq_some_iff.1 h with ⟨header, hheader, rfl⟩
  change name ∈ ctx.index.classes.keys
  rw [Std.TreeMap.mem_keys, Std.TreeMap.mem_iff_isSome_getElem?]
  unfold declaration? Index.findClass Index.lookUp at hheader
  cases hfault : ctx.index.faults[name]? with
  | some fault => simp [hfault] at hheader
  | none =>
    cases hclass : ctx.index.classes[name]? with
    | none => simp [hfault, hclass] at hheader
    | some header' => rfl

theorem name_mem_classNames_of_superclass? {c a : Class} (h : a ∈ ctx.superclass? c)
    : a.name ∈ ctx.index.classNames := by
  unfold superclass? at h
  split at h
  . split at h
    . cases h
    . exact name_mem_classNames_of_declared? h
  . cases h

theorem mem_poolFrom {start : Class} {name : String}
    : name ∈ ctx.poolFrom start ↔ name ∈ ctx.index.classNames ∧ name ≠ start.name :=
  Pool.mem_remove

/--
How a climb ends, by its calls and whether it leads back to a class that was met before.
-/
def outcome (repeats : Bool) (calls : List (Class × Bool)) : ClimbEnd :=
  if calls.all (·.2) then if repeats then .repeated else .top else .refused

theorem outcome_goesOn (repeats : Bool) (cs : List Class)
    : outcome repeats (cs.map (·, true)) = if repeats then .repeated else .top := by
  simp [outcome]

theorem climbs_of_cut {superOf : Class → Option Class} {isInterface : Class → Bool}
    (hsuper : ∀ a, a.origin.cell? = none → superOf a = ctx.superclass? a)
    (hinterface : ∀ a, a.origin.cell? = none → isInterface a = (ctx.knownHeader a).isInterface)
    {pool : Pool} {visited : List String}
    (hpool : ∀ name ∈ ctx.index.classNames, name ∈ pool ↔ name ∉ visited)
    {c : Class} {next : Option Class} (hc : superOf c = next)
    (hcell : ∀ a ∈ next, a.origin.cell? = none) (hname : ∀ a ∈ next, a.name ∈ ctx.index.classNames)
    {calls : List (Class × Bool)} (hcut : Cut (ctx.chain pool next).1 calls)
    : Climbs superOf isInterface visited c calls (outcome (ctx.chain pool next).2 calls) := by
  fun_induction chain ctx pool next generalizing c visited calls with
  | case1 =>
    cases hcut
    exact .root hc
  | case2 pool d hd hinterface' =>
    have hnew := (hpool _ (hname d rfl)).1 hd
    cases hcut with
    | refused => exact .refused hc hnew
    | goesOn hrest =>
      cases hrest
      exact .interface hc hnew (by rw [hinterface d (hcell d rfl), hinterface'])
  | @case3 pool d hd hinterface' rest ih =>
    have hnew := (hpool _ (hname d rfl)).1 hd
    cases hcut with
    | refused => exact .refused hc hnew
    | goesOn hrest =>
      have hclass : isInterface d = false := by
        rw [hinterface d (hcell d rfl)]
        simpa using hinterface'
      apply Climbs.next hc hnew hclass
      apply ih _ (hsuper d (hcell d rfl)) _ _ hrest
      . intro name hname'
        rw [Pool.mem_remove, hpool name hname']
        simp [and_comm]
      . exact fun _ => cell?_eq_none_of_superclass?
      . exact fun _ => name_mem_classNames_of_superclass?
  | case4 pool d hd =>
    cases hcut
    refine .repeated hc ?_
    have hold := mt (hpool _ (hname d rfl)).2 hd
    simpa using hold

theorem forest_names (pool : Pool) (pending : List Class)
    : ((ctx.forest pool pending).map Class.name).Nodup ∧
      ∀ c ∈ ctx.forest pool pending, c.name ∈ pool := by
  fun_induction forest ctx pool pending with
  | case1 => simp
  | case2 pool pending c rest hfrom ih =>
    rcases ih with ⟨hnodup, hmem⟩
    simp only [Pool.mem_remove] at hmem
    simp only [List.map_cons, List.nodup_cons, List.mem_map, List.forall_mem_cons]
    refine ⟨⟨?_, hnodup⟩, Pool.mem_of_pendingFrom hfrom, fun a ha => (hmem a ha).1⟩
    rintro ⟨a, ha, heq⟩
    exact (hmem a ha).2 heq

theorem walk_recorded (f : Class → σ → Bool × σ) (start : Class) (state : σ)
    : ∃ state' climbed forest,
        ctx.walk (recordCall f) start (state, [])
          =
        ((climbed ++ forest).all (·.2), state', climbed ++ forest) ∧
        Cut (ctx.superclasses start).1 climbed ∧
        if outcome (ctx.superclasses start).2 climbed = .repeated then forest = []
        else Cut (ctx.interfaceForest start) forest := by
  rcases visitAll_recorded f (ctx.superclasses start).1 state [] with
    ⟨state₁, climbed, hclimbed, hsupers⟩
  rcases visitAll_recorded f (ctx.interfaceForest start) state₁ climbed with
    ⟨state₂, forest, hforest, hinterfaces⟩
  rw [List.nil_append] at hsupers
  unfold walk climbEnd outcome
  rw [hsupers]
  cases hall : climbed.all (·.2) with
  | false =>
    refine ⟨state₂, climbed, forest, ?_, hclimbed, ?_⟩
    . simp [hinterfaces, hall]
    . simpa [hall] using hforest
  | true =>
    cases (ctx.superclasses start).2 with
    | false =>
      refine ⟨state₂, climbed, forest, ?_, hclimbed, ?_⟩
      . simp [hinterfaces, hall]
      . simpa [hall] using hforest
    | true => exact ⟨state₁, climbed, [], by simp [hall], hclimbed, by simp [hall]⟩

theorem name_mem_of_mem_chain {pool : Pool} {next : Option Class} {a : Class}
    (h : a ∈ (ctx.chain pool next).1)
    : a.name ∈ pool := by
  fun_induction chain ctx pool next with
  | case1 => cases h
  | case2 pool c hc => rwa [List.mem_singleton.1 h]
  | case3 pool c hc _ rest ih =>
    rcases List.mem_cons.1 h with rfl | h
    . exact hc
    . exact (Pool.mem_remove.1 (ih h)).1
  | case4 => cases h

theorem interfaceForest_names (start : Class)
    : (start.name :: (ctx.interfaceForest start).map Class.name).Nodup := by
  rcases forest_names (ctx.poolFrom start) (ctx.extended start) with ⟨hnodup, hmem⟩
  refine List.nodup_cons.2 ⟨?_, hnodup⟩
  intro hstart
  rcases List.mem_map.1 hstart with ⟨a, ha, heq⟩
  exact (mem_poolFrom.1 (hmem a ha)).2 heq

end Context

theorem Index.length_le_size {index : Index} {nameOf : α → String} {xs : List α}
    (h : (xs.map nameOf).Nodup) (hxs : ∀ x ∈ xs, nameOf x ∈ index.classNames)
    : xs.length ≤ index.size := by
  have hsubset : xs.map nameOf ⊆ index.classNames := by
    intro name hname
    rcases List.mem_map.1 hname with ⟨x, hx, rfl⟩
    exact hxs x hx
  calc
    xs.length = (xs.map nameOf).length := (List.length_map nameOf).symm
    _ ≤ index.classNames.length := h.length_le_of_subset hsubset
    _ = index.size := Std.TreeMap.length_keys

open Query

theorem Session.climb_of_cut {ctx : Context} [ctx.Quiet] {limits : Limits}
    {history : List Request} {pool : List Class} {s : QueryState}
    (h : Session ctx limits history pool s) {start : Class} (hstart : start ∈ pool)
    {calls : List (Class × Bool)} (hcut : Cut (ctx.superclasses start).1 calls)
    : IsClimb (fun a => ((ctx.superclass a).run s).1)
        (fun a => ((ctx.headerOf a).run s).1.isInterface) start calls
        (Context.outcome (ctx.superclasses start).2 calls) := by
  have hsuper : ∀ a, a.origin.cell? = none →
      ((ctx.superclass a).run s).1 = ctx.superclass? a := by
    intro a ha
    exact ((Context.superclass_reads a).finds ha s).1
  have hinterface : ∀ a, a.origin.cell? = none →
      ((ctx.headerOf a).run s).1.isInterface = (ctx.knownHeader a).isInterface := by
    intro a ha
    rw [((Context.headerOf_reads a).finds ha s).1]
  have hfirst : ((ctx.superclass start).run s).1 = ctx.superclass? start :=
    h.reads_eq hstart (Context.superclass_reads start) (ctx.alike_settled start).superclass?_eq
  apply Climbs.isClimb
  apply Context.climbs_of_cut hsuper hinterface _ hfirst _ _ hcut
  . intro name hname
    simp [Context.mem_poolFrom, hname]
  . exact fun _ => Context.cell?_eq_none_of_superclass?
  . exact fun _ => Context.name_mem_classNames_of_superclass?

theorem walkAncestors_calls (index : Index) (options : Options) (scope : Scope) (limits : Limits)
    {history : List Request} {pool : List Class} {s : QueryState}
    (h : Session { index, options, scope } limits history pool s) {start : Class}
    (hstart : start ∈ pool) (f : Class → σ → Bool × σ) (state : σ)
    : let ctx : Context := { index, options, scope }
      let superOf := fun a => ((ctx.superclass a).run s).1
      let isInterface := fun a => ((ctx.headerOf a).run s).1.isInterface
      ∃ state' climbed forest e,
        (((ctx.walkAncestors start (.recorded f)).run (state, [])).run s).1
          =
        ((climbed ++ forest).all (·.2), state', climbed ++ forest) ∧
        IsClimb superOf isInterface start climbed e ∧
        (if e = .repeated then forest = []
          else Cut ((ctx.allInterfaces start).run s).1 forest) ∧
        (start.name :: forest.map (·.1.name)).Nodup ∧
        climbed.length ≤ index.size ∧ forest.length ≤ index.size := by
  intro ctx superOf isInterface
  have hwalk : (((ctx.walkAncestors start (.recorded f)).run (state, [])).run s).1
      = ctx.walk (recordCall f) start (state, []) :=
    h.reads_eq hstart (Context.walkAncestors_reads (fun _ _ _ => Finds.pure _) start _)
      ((ctx.alike_settled start).walk_eq _ _)
  have hinterfaces : ((ctx.allInterfaces start).run s).1 = ctx.interfaceForest start :=
    h.reads_eq hstart (Context.allInterfaces_reads start)
      (ctx.alike_settled start).interfaceForest_eq
  rcases ctx.walk_recorded f start state with ⟨state', climbed, forest, hrun, hclimbed, hforest⟩
  rw [hwalk, hinterfaces]
  have hclimb := h.climb_of_cut hstart hclimbed
  have hshown : forest.map (·.1) <+: ctx.interfaceForest start := by
    split at hforest
    . rw [hforest]
      exact List.nil_prefix
    . exact hforest.isPrefix
  have hnodup : (start.name :: (forest.map (·.1)).map Class.name).Nodup :=
    (ctx.interfaceForest_names start).sublist ((hshown.sublist.map Class.name).cons_cons _)
  rw [List.map_map] at hnodup
  refine ⟨state', climbed, forest, _, hrun, hclimb, hforest, hnodup, ?_, ?_⟩
  . have hnodup' := hclimb.nodup
    rw [List.map_cons, List.map_map] at hnodup'
    apply Index.length_le_size (List.nodup_cons.1 hnodup').2
    intro call hcall
    have hchain := hclimbed.isPrefix.subset (List.mem_map_of_mem hcall)
    exact (Context.mem_poolFrom.1 (Context.name_mem_of_mem_chain hchain)).1
  . apply Index.length_le_size (List.nodup_cons.1 hnodup).2
    intro call hcall
    have hforest' := hshown.subset (List.mem_map_of_mem hcall)
    exact (Context.mem_poolFrom.1 ((Context.forest_names _ _).2 _ hforest')).1

theorem walkAncestors_calls_puppy
    : let ctx : Context := { index := .pets }
      let puppy := Class.referenceAt "Puppy" 0
      let s := (((Maker.reference "Puppy").run ctx).run (.fresh .standard)).2
      -- A visitor that refuses the second class it meets.
      let walk := (((ctx.walkAncestors puppy (.recorded fun _ n => (n != 1, n + 1))).run
        (0, [])).run s).1
      walk.2.2.map (fun call => (call.1.name, call.2))
        = [("Dog", true), ("Animal", false), ("Pet", true), ("Animal", true)] ∧
      walk.1 = walk.2.2.all (·.2) := by
  intro ctx puppy s walk
  have hmade : Session ctx .standard [] [puppy] s := .make (.reference "Puppy") .start
  refine ⟨by decide +kernel, ?_⟩
  rcases walkAncestors_calls .pets {} .project .standard hmade List.mem_cons_self
    (fun _ n => (n != 1, n + 1)) 0 with ⟨_, _, _, _, hwalk, _⟩
  change walk = _ at hwalk
  rw [hwalk]

theorem ancestors_repeat_iff (index : Index) (options : Options) (scope : Scope) (limits : Limits)
    {history : List Request} {pool : List Class} {s : QueryState}
    (h : Session { index, options, scope } limits history pool s) {c : Class} (hc : c ∈ pool)
    : let ctx : Context := { index, options, scope }
      let superOf := fun a => ((ctx.superclass a).run s).1
      let isInterface := fun a => ((ctx.headerOf a).run s).1.isInterface
      let ancestors := ((ctx.ancestors c).run s).1
      ∃ climbed e, IsClimb superOf isInterface c (climbed.map (·, true)) e ∧
        let forest := if e = .repeated then [] else ((ctx.allInterfaces c).run s).1
        ancestors = climbed ++ forest ∧
        (∀ name, (ancestors.map Class.name).count name
          = (if name ∈ climbed.map Class.name then 1 else 0) +
            (if name ∈ forest.map Class.name then 1 else 0)) ∧
        ((ancestors.map Class.name).Nodup ↔ ∀ a ∈ climbed, ∀ b ∈ forest, a.name ≠ b.name) ∧
        ((ctx.members c true).run s).1
          =
        ((ctx.ownMembers c).run s).1.map (c, ·) ++
          ancestors.flatMap fun a => ((ctx.ownMembers a).run s).1.map (a, ·) := by
  intro ctx superOf isInterface ancestors
  have hinterfaces : ((ctx.allInterfaces c).run s).1 = ctx.interfaceForest c :=
    h.reads_eq hc (Context.allInterfaces_reads c) (ctx.alike_settled c).interfaceForest_eq
  have hancestors : ancestors = ctx.lineage c :=
    h.reads_eq hc (Context.ancestors_reads c) (ctx.alike_settled c).lineage_eq
  have hclimb := h.climb_of_cut hc (.of_goesOn _)
  rw [Context.outcome_goesOn] at hclimb
  refine ⟨(ctx.superclasses c).1, _, hclimb, ?_⟩
  intro forest
  have hforest : forest = if (ctx.superclasses c).2 then [] else ctx.interfaceForest c := by
    simp only [forest, hinterfaces]
    cases (ctx.superclasses c).2 <;> rfl
  have hclimbed : ((ctx.superclasses c).1.map Class.name).Nodup := by
    have hnodup := (List.nodup_cons.1 hclimb.nodup).2
    simpa [Function.comp_def] using hnodup
  have hnodup : (forest.map Class.name).Nodup := by
    rw [hforest]
    split
    . exact .nil
    . exact (List.nodup_cons.1 (ctx.interfaceForest_names c)).2
  have hsplit : ancestors = (ctx.superclasses c).1 ++ forest := by
    rw [hancestors, hforest]
    rfl
  refine ⟨hsplit, ?_, ?_, h.members_eq hc⟩
  . intro name
    rw [hsplit, List.map_append, List.count_append, hclimbed.count, hnodup.count]
  . rw [hsplit, List.map_append, List.nodup_append]
    simp [hclimbed, hnodup]

theorem ancestors_repeat_puppy
    : let ctx : Context := { index := .pets }
      let puppy := Class.referenceAt "Puppy" 0
      let s := (((Maker.reference "Puppy").run ctx).run (.fresh .standard)).2
      ∃ climbed forest, ((ctx.ancestors puppy).run s).1 = climbed ++ forest ∧
        ¬∀ a ∈ climbed, ∀ b ∈ forest, a.name ≠ b.name := by
  intro ctx puppy s
  have hmade : Session ctx .standard [] [puppy] s := .make (.reference "Puppy") .start
  have hrepeat : ¬(((ctx.ancestors puppy).run s).1.map Class.name).Nodup := by decide +kernel
  rcases ancestors_repeat_iff .pets {} .project .standard hmade List.mem_cons_self with
    ⟨climbed, _, _, hsplit, _, hnodup, _⟩
  exact ⟨climbed, _, hsplit, fun hdisjoint => hrepeat (hnodup.2 hdisjoint)⟩

theorem animal_met_twice
    : let ctx : Context := { index := .pets }
      let puppy := Class.referenceAt "Puppy" 0
      let s := (((Maker.reference "Puppy").run ctx).run (.fresh .standard)).2
      ((ctx.ancestors puppy).run s).1.map Class.name = ["Dog", "Animal", "Pet", "Animal"] ∧
      ((ctx.members puppy true).run s).1.map (fun p => (p.1.name, p.2.name))
        = [("Animal", some "legs"), ("Pet", some "legs"), ("Pet", some "owner"),
            ("Animal", some "legs")] := by
  decide +kernel

end LuaClasses
