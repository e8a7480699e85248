import LuaClasses.Proofs.Transitivity

/-!
This module contains the order in which the interfaces of a class are visited. The walk keeps a list
of pending classes; what it visits is a depth-first search, in which a class stands before the
interfaces that were first found through it, and these before its next sibling. The search leaves
out nothing: a class that is skipped because it was visited has all that lies behind it visited too,
even if that is still under way.
-/

namespace LuaClasses

namespace Index

variable (i : Index)

/--
Whether the name has a declaration that can be looked up.
-/
def Available (name : String) : Prop :=
  ∃ d, i.findClass name = .ok (some d)

/--
The interfaces that the declaration of a name gives, if it can be looked up.
-/
def interfaceNamesOf (name : String) : List String :=
  match i.findClass name with
  | .ok (some d) => d.header.interfaceNames
  | _ => []

/--
The names on paths along interfaces that start at one of `roots`. Every name on the path is
available, and none is among `avoided`.
-/
inductive Reaches (avoided roots : List String) : String → Prop where
  | root {name} : name ∈ roots → i.Available name → name ∉ avoided → Reaches avoided roots name
  | next {name other} : Reaches avoided roots name → other ∈ i.interfaceNamesOf name →
      i.Available other → other ∉ avoided → Reaches avoided roots other

/--
A depth-first search through the pending names, where `visited` were met before, gives the names in
this order.
-/
inductive DepthFirst : (visited pending order : List String) → Prop where
  | done {visited} : DepthFirst visited [] []
  | skip {visited name rest order} : name ∈ visited ∨ ¬i.Available name →
      DepthFirst visited rest order → DepthFirst visited (name :: rest) order
  | visit {visited name rest below later} : i.Available name → name ∉ visited →
      DepthFirst (visited ++ [name]) (i.interfaceNamesOf name) below →
      DepthFirst (visited ++ name :: below) rest later →
      DepthFirst visited (name :: rest) (name :: (below ++ later))

variable {i}

theorem Reaches.mono {avoided avoided' roots roots' : List String} {name : String}
    (h : i.Reaches avoided' roots' name) (havoided : avoided ⊆ avoided')
    (hroots : ∀ root ∈ roots', i.Available root → root ∉ avoided' → i.Reaches avoided roots root)
    : i.Reaches avoided roots name := by
  induction h with
  | root hroot havailable hnew => exact hroots _ hroot havailable hnew
  | next _ hlink havailable hnew ih => exact .next ih hlink havailable fun h => hnew (havoided h)

namespace DepthFirst

variable {visited pending order : List String}

theorem nodup (h : i.DepthFirst visited pending order) (hvisited : visited.Nodup)
    : (visited ++ order).Nodup := by
  induction h with
  | done => simpa using hvisited
  | skip _ _ ih => exact ih hvisited
  | @visit visited name _ below _ _ hnew _ _ ihbelow ihlater =>
    have hname : (visited ++ [name]).Nodup := by
      refine List.nodup_append.2 ⟨hvisited, by simp, ?_⟩
      rintro a ha b hb rfl
      rw [List.mem_singleton.1 hb] at ha
      exact hnew ha
    have hbelow : (visited ++ name :: below).Nodup := by
      simpa using ihbelow hname
    simpa using ihlater hbelow

theorem mem_of_mem_pending (h : i.DepthFirst visited pending order) {name : String}
    (hname : name ∈ pending) (havailable : i.Available name)
    : name ∈ visited ++ order := by
  induction h with
  | done => cases hname
  | skip hskip _ ih =>
    rcases List.mem_cons.1 hname with rfl | hname
    . exact List.mem_append_left _ (hskip.resolve_right (not_not_intro havailable))
    . exact ih hname
  | visit _ _ _ _ _ ihlater =>
    rcases List.mem_cons.1 hname with rfl | hname
    . exact List.mem_append_right _ List.mem_cons_self
    . simpa using ihlater hname

/--
What lies behind a name that is visited has been visited, or is visited in the end.
-/
theorem closed (h : i.DepthFirst visited pending order) {name other : String}
    (hname : name ∈ order) (hlink : other ∈ i.interfaceNamesOf name)
    (havailable : i.Available other)
    : other ∈ visited ++ order := by
  induction h with
  | done => cases hname
  | skip _ _ ih => exact ih hname
  | @visit visited first _ below later _ _ hbelow _ ihbelow ihlater =>
    have hweaken : visited ++ [first] ++ below ⊆ visited ++ first :: (below ++ later) := by
      intro a ha
      simpa using List.mem_append_left later ha
    rcases List.mem_cons.1 hname with rfl | hname
    . exact hweaken (hbelow.mem_of_mem_pending hlink havailable)
    . rcases List.mem_append.1 hname with hname | hname
      . exact hweaken (ihbelow hname)
      . simpa using ihlater hname

theorem reaches_of_mem (h : i.DepthFirst visited pending order) {name : String}
    (hname : name ∈ order)
    : i.Reaches visited pending name := by
  induction h with
  | done => cases hname
  | skip _ _ ih =>
    apply (ih hname).mono (List.Subset.refl _)
    intro root hroot havailable hnew
    exact .root (List.mem_cons_of_mem _ hroot) havailable hnew
  | @visit visited first rest below later havailable hnew _ _ ihbelow ihlater =>
    have hfirst : i.Reaches visited (first :: rest) first :=
      .root List.mem_cons_self havailable hnew
    rcases List.mem_cons.1 hname with rfl | hname
    . exact hfirst
    . rcases List.mem_append.1 hname with hname | hname
      . apply (ihbelow hname).mono (List.subset_append_left visited [first])
        intro root hroot hroot' hnew'
        exact .next hfirst hroot hroot' fun h => hnew' (List.mem_append_left _ h)
      . apply (ihlater hname).mono (List.subset_append_left visited (first :: below))
        intro root hroot hroot' hnew'
        exact .root (List.mem_cons_of_mem _ hroot) hroot' fun h => hnew' (List.mem_append_left _ h)

theorem mem_iff (h : i.DepthFirst visited pending order) {name : String}
    : name ∈ order ↔ i.Reaches visited pending name := by
  constructor
  . exact h.reaches_of_mem
  . intro hreaches
    induction hreaches with
    | root hroot havailable hnew =>
      exact (List.mem_append.1 (h.mem_of_mem_pending hroot havailable)).resolve_left hnew
    | next _ hlink havailable hnew ih =>
      exact (List.mem_append.1 (h.closed ih hlink havailable)).resolve_left hnew

/--
Right behind a name stand the names that are first found through it.
-/
theorem split (h : i.DepthFirst visited pending order) {before after : List String} {name : String}
    (horder : order = before ++ name :: after)
    : ∃ below later, after = below ++ later ∧
        i.DepthFirst (visited ++ before ++ [name]) (i.interfaceNamesOf name) below := by
  induction h generalizing before after with
  | done => simp at horder
  | skip _ _ ih => exact ih horder
  | @visit visited first rest below later _ _ hbelow _ ihbelow ihlater =>
    cases before with
    | nil =>
      rw [List.nil_append, List.cons.injEq] at horder
      rcases horder with ⟨rfl, rfl⟩
      exact ⟨below, later, rfl, by simpa using hbelow⟩
    | cons _ before =>
      rw [List.cons_append, List.cons.injEq] at horder
      rcases horder with ⟨rfl, horder⟩
      rcases List.append_eq_append_iff.1 horder with ⟨more, rfl, hlater⟩ | ⟨more, hmore, hafter⟩
      . -- The name is met after everything that was found through the first one.
        rcases ihlater hlater with ⟨below', later', rfl, hfound⟩
        exact ⟨below', later', rfl, by simpa using hfound⟩
      . cases more with
        | nil =>
          rw [List.nil_append, ← List.nil_append (name :: after)] at hafter
          rcases ihlater hafter.symm with ⟨below', later', rfl, hfound⟩
          refine ⟨below', later', rfl, ?_⟩
          rw [List.append_nil] at hmore
          simpa [hmore] using hfound
        | cons _ more =>
          rw [List.cons_append, List.cons.injEq] at hafter
          rcases hafter with ⟨rfl, rfl⟩
          rcases ihbelow hmore with ⟨below', later', rfl, hfound⟩
          refine ⟨below', later' ++ later, by simp, by simpa using hfound⟩

theorem of_filter {name : String} (hvisited : name ∈ visited)
    (h : i.DepthFirst visited (pending.filter (· != name)) order)
    : i.DepthFirst visited pending order := by
  induction pending generalizing visited order with
  | nil => exact h
  | cons first rest ih =>
    by_cases hfirst : first = name
    . subst hfirst
      apply skip (.inl hvisited)
      apply ih hvisited
      simpa using h
    . rw [List.filter_cons_of_pos (by simpa using hfirst)] at h
      cases h with
      | skip hskip hrest => exact skip hskip (ih hvisited hrest)
      | visit havailable hnew hbelow hlater =>
        exact visit havailable hnew hbelow (ih (List.mem_append_left _ hvisited) hlater)

end DepthFirst

end Index

namespace Pool

variable {pool : Pool} {nameOf : α → String}

theorem pendingFrom_cons_of_mem {a : α} {rest : List α} (h : nameOf a ∈ pool)
    : pool.pendingFrom nameOf (a :: rest) = a :: rest := by
  apply List.dropWhile_cons_of_neg
  simpa using h

theorem pendingFrom_cons_of_not_mem {a : α} {rest : List α} (h : nameOf a ∉ pool)
    : pool.pendingFrom nameOf (a :: rest) = pool.pendingFrom nameOf rest := by
  apply List.dropWhile_cons_of_pos
  simpa using h

theorem pendingFrom_append (xs ys : List α)
    : pool.pendingFrom nameOf (xs ++ ys)
        =
      match pool.pendingFrom nameOf xs with
      | [] => pool.pendingFrom nameOf ys
      | x :: rest => x :: (rest ++ ys) := by
  induction xs with
  | nil => rfl
  | cons x xs ih =>
    by_cases hx : nameOf x ∈ pool
    . rw [List.cons_append, pendingFrom_cons_of_mem hx, pendingFrom_cons_of_mem hx]
    . rw [List.cons_append, pendingFrom_cons_of_not_mem hx, pendingFrom_cons_of_not_mem hx, ih]

end Pool

namespace Context

variable {ctx : Context}

theorem available_iff {name : String}
    : ctx.index.Available name ↔ ∃ c, ctx.declared? name = some c := by
  constructor
  . rintro ⟨d, hd⟩
    refine ⟨.ofDecl { name, header := d.header }, ?_⟩
    rw [declared?, (ctx.declaration?_of_findClass hd).2]
    rfl
  . rintro ⟨c, hc⟩
    rcases Option.map_eq_some_iff.1 hc with ⟨header, hheader, _⟩
    unfold declaration? at hheader
    split at hheader
    . next d hd => exact ⟨d, hd⟩
    . cases hheader

theorem forest_of_pendingFrom_nil {pool : Pool} {pending : List Class}
    (h : pool.pendingFrom Class.name pending = [])
    : ctx.forest pool pending = [] := by
  rw [forest]
  split
  . rfl
  . next h' =>
    rw [h] at h'
    cases h'

theorem forest_of_pendingFrom_cons {pool : Pool} {pending rest : List Class} {c : Class}
    (h : pool.pendingFrom Class.name pending = c :: rest)
    : ctx.forest pool pending = c :: ctx.forest (pool.remove c.name) (ctx.extended c ++ rest) := by
  rw [forest]
  split
  . next h' =>
    rw [h] at h'
    cases h'
  . next h' =>
    rw [h] at h'
    cases h'
    rfl

theorem forest_congr {pool : Pool} {pending pending' : List Class}
    (h : pool.pendingFrom Class.name pending = pool.pendingFrom Class.name pending')
    : ctx.forest pool pending = ctx.forest pool pending' := by
  cases hfrom : pool.pendingFrom Class.name pending with
  | nil =>
    rw [hfrom] at h
    rw [forest_of_pendingFrom_nil hfrom, forest_of_pendingFrom_nil h.symm]
  | cons c rest =>
    rw [hfrom] at h
    rw [forest_of_pendingFrom_cons hfrom, forest_of_pendingFrom_cons h.symm]

/--
A walk over two lists of pending classes is one over the first, then one over the second with what
is left of the pool.
-/
theorem forest_append (pool : Pool) (xs ys : List Class)
    : ∃ left : Pool, ctx.forest pool (xs ++ ys) = ctx.forest pool xs ++ ctx.forest left ys ∧
        left.length ≤ pool.length ∧
        ∀ name, name ∈ left ↔ name ∈ pool ∧ name ∉ (ctx.forest pool xs).map Class.name := by
  fun_induction forest ctx pool xs with
  | case1 pool xs hfrom =>
    refine ⟨pool, ?_, Nat.le_refl _, by simp⟩
    apply forest_congr
    rw [Pool.pendingFrom_append, hfrom]
  | case2 pool xs c rest hfrom ih =>
    rcases ih with ⟨left, hforest, hlength, hleft⟩
    have hpool := Pool.mem_of_pendingFrom hfrom
    have hremove := Pool.length_remove_lt hpool
    refine ⟨left, ?_, by omega, ?_⟩
    . have hboth : pool.pendingFrom Class.name (xs ++ ys) = c :: (rest ++ ys) := by
        rw [Pool.pendingFrom_append, hfrom]
      rw [forest_of_pendingFrom_cons hboth, ← List.append_assoc, hforest]
      rfl
    . intro name
      rw [hleft, Pool.mem_remove, List.map_cons, List.mem_cons, not_or]
      tauto

theorem interfaceNamesOf_eq {name : String} {c : Class} (h : ctx.declared? name = some c)
    : ctx.index.interfaceNamesOf name = (ctx.knownHeader c).interfaceNames := by
  rcases available_iff.2 ⟨c, h⟩ with ⟨d, hd⟩
  rw [declared?, (ctx.declaration?_of_findClass hd).2] at h
  cases h
  rw [Index.interfaceNamesOf, hd]
  rfl

theorem forest_depthFirst {pool : Pool} {visited : List String} (names : List String)
    (hpool : ∀ name, ctx.index.Available name → (name ∈ pool ↔ name ∉ visited))
    : ctx.index.DepthFirst visited names
        ((ctx.forest pool (names.filterMap ctx.declared?)).map Class.name) := by
  match names with
  | [] =>
    rw [List.filterMap_nil, forest_of_pendingFrom_nil rfl]
    exact .done
  | name :: rest =>
    cases hdeclared : ctx.declared? name with
    | none =>
      have hskip : ¬ctx.index.Available name := by
        simp [available_iff, hdeclared]
      rw [List.filterMap_cons_none hdeclared]
      exact .skip (.inr hskip) (forest_depthFirst rest hpool)
    | some c =>
      cases name_eq_of_declared? hdeclared
      have havailable := available_iff.2 ⟨c, hdeclared⟩
      rw [List.filterMap_cons_some hdeclared]
      by_cases hmem : c.name ∈ pool
      . have hlength := Pool.length_remove_lt hmem
        have hremove : ∀ other, ctx.index.Available other →
            (other ∈ pool.remove c.name ↔ other ∉ visited ++ [c.name]) := by
          intro other hother
          simp [Pool.mem_remove, hpool other hother]
        rcases ctx.forest_append (pool.remove c.name) (ctx.extended c)
          (rest.filterMap ctx.declared?) with ⟨left, hforest, hleft, hmemleft⟩
        rw [forest_of_pendingFrom_cons (Pool.pendingFrom_cons_of_mem hmem), hforest, List.map_cons,
          List.map_append]
        refine .visit havailable ((hpool _ havailable).1 hmem) ?_ ?_
        . rw [interfaceNamesOf_eq hdeclared]
          have hvisited : c.name ∈ visited ++ [c.name] := by simp
          apply Index.DepthFirst.of_filter hvisited
          exact forest_depthFirst _ hremove
        . apply forest_depthFirst rest
          intro other hother
          simp [hmemleft, hremove other hother, and_assoc]
      . have hskip : c.name ∈ visited := by
          rw [hpool _ havailable] at hmem
          simpa using hmem
        rw [forest_congr (Pool.pendingFrom_cons_of_not_mem hmem)]
        exact .skip (.inl hskip) (forest_depthFirst rest hpool)
termination_by (pool.length, names.length)

theorem interfaceForest_depthFirst (start : Class)
    : ctx.index.DepthFirst [start.name] (ctx.knownHeader start).interfaceNames
        ((ctx.interfaceForest start).map Class.name) := by
  have hvisited : start.name ∈ [start.name] := List.mem_cons_self
  apply Index.DepthFirst.of_filter hvisited
  apply forest_depthFirst
  intro name havailable
  rcases available_iff.1 havailable with ⟨c, hc⟩
  have hname := name_mem_classNames_of_declared? hc
  rw [name_eq_of_declared? hc] at hname
  simp [mem_poolFrom, hname]

theorem exists_ofDecl_of_mem_interfaceForest {start c : Class} (h : c ∈ ctx.interfaceForest start)
    : ∃ d, ctx.index.findClass c.name = .ok (some d) ∧ c = .ofDecl d := by
  have hc : ctx.IsDeclared c :=
    forest_induct (fun _ => isDeclared_of_mem_extended) (fun _ _ _ => isDeclared_of_mem_extended) h
  rcases available_iff.2 ⟨c, hc⟩ with ⟨d, hd⟩
  refine ⟨d, hd, ?_⟩
  rcases ctx.declaration?_of_findClass hd with ⟨hname, hheader⟩
  unfold IsDeclared declared? at hc
  rw [hheader, Option.map_some, Option.some.injEq, ← hname] at hc
  exact hc.symm

end Context

theorem visitAll_recorded_goesOn (g : Class → σ → σ) (cs : List Class) (state : σ)
    (calls : List (Class × Bool))
    : visitAll (recordCall fun c state => (true, g c state)) cs (state, calls)
        =
      (true, cs.foldl (fun state c => g c state) state, calls ++ cs.map (·, true)) := by
  induction cs generalizing state calls with
  | nil => simp [visitAll]
  | cons c rest ih => simp [visitAll, recordCall, ih]

theorem walkInterfaces_depthFirst (index : Index) (options : Options) (scope : Scope)
    (limits : Limits) {history : List Request} {pool : List Class} {s : QueryState}
    (h : Session { index, options, scope } limits history pool s) {start : Class}
    (hstart : start ∈ pool) (g : Class → σ → σ) (state : σ)
    : let ctx : Context := { index, options, scope }
      let roots := ((ctx.headerOf start).run s).1.interfaceNames
      ∃ seen : List Class,
        (((ctx.walkInterfaces start (.recorded fun c state => (true, g c state))).run
          (state, [])).run s).1
          =
        (true, seen.foldl (fun state c => g c state) state, seen.map (·, true)) ∧
        (∀ c ∈ seen, ∃ d, index.findClass c.name = .ok (some d) ∧ c = .ofDecl d) ∧
        (∀ name, name ∈ seen.map Class.name ↔ index.Reaches [start.name] roots name) ∧
        (seen.map Class.name).Nodup ∧
        index.DepthFirst [start.name] roots (seen.map Class.name) ∧
        ∀ before name after, seen.map Class.name = before ++ name :: after →
          ∃ below later, after = below ++ later ∧ ∀ other, other ∈ below ↔
            index.Reaches (start.name :: before ++ [name]) (index.interfaceNamesOf name) other := by
  intro ctx roots
  have hroots : roots = (ctx.knownHeader start).interfaceNames := by
    have hheader : ((ctx.headerOf start).run s).1 = ctx.knownHeader start :=
      h.reads_eq hstart (Context.headerOf_reads start) (ctx.alike_settled start).knownHeader_eq
    simp only [roots, hheader]
  have hwalk : (((ctx.walkInterfaces start (.recorded fun c state => (true, g c state))).run
      (state, [])).run s).1 = visitAll (recordCall fun c state => (true, g c state))
        (ctx.interfaceForest start) (state, []) := by
    apply h.reads_eq hstart (Context.walkInterfaces_reads (fun _ _ _ => Query.Finds.pure _) _ _)
    rw [(ctx.alike_settled start).interfaceForest_eq]
  have hsearch := ctx.interfaceForest_depthFirst start
  rw [← hroots] at hsearch
  have hnodup := hsearch.nodup (by simp)
  refine ⟨ctx.interfaceForest start, ?_, ?_, ?_, (List.nodup_append.1 hnodup).2.1, hsearch, ?_⟩
  . rw [hwalk, visitAll_recorded_goesOn]
    rfl
  . intro c hc
    exact Context.exists_ofDecl_of_mem_interfaceForest hc
  . intro name
    exact hsearch.mem_iff
  . intro before name after hsplit
    rcases hsearch.split hsplit with ⟨below, later, hafter, hbelow⟩
    exact ⟨below, later, hafter, fun other => hbelow.mem_iff⟩

/--
Interfaces with a cycle and two ways to one of them. One interface is not declared, and one cannot
be looked up.
-/
def Index.lattice : Index :=
  let i : Index := {}
  let i := i.declare { name := "Root", header := { interfaceNames := ["Left", "Ghost", "Right"] } }
  let i := i.declare { name := "Left", header := { interfaceNames := ["Base", "Root"] } }
  let i := i.declare { name := "Base", header := { interfaceNames := ["Left"] } }
  let i := i.declare { name := "Right", header := { interfaceNames := ["Base", "Shut", "Top"] } }
  let i := i.declare { name := "Shut", header := { interfaceNames := ["Hidden"] } }
  let i := i.declare { name := "Hidden", header := {} }
  let i := i.declare { name := "Top", header := {} }
  i.markFault "Shut" .unavailable

theorem walkInterfaces_depthFirst_lattice
    : let ctx : Context := { index := .lattice }
      let root := Class.referenceAt "Root" 0
      let s := (((Maker.reference "Root").run ctx).run (.fresh .standard)).2
      let walk := (((ctx.walkInterfaces root (.recorded fun _ n => (true, n + 1))).run
        (0, [])).run s).1
      walk.2.2.map (·.1.name) = ["Left", "Base", "Right", "Top"] ∧ walk.1 = true ∧
      ¬Index.lattice.Reaches ["Root"] ((ctx.headerOf root).run s).1.interfaceNames "Hidden" := by
  intro ctx root s walk
  have hmade : Session ctx .standard [] [root] s := .make (.reference "Root") .start
  have hcalls : walk.2.2.map (·.1.name) = ["Left", "Base", "Right", "Top"] := by decide +kernel
  rcases walkInterfaces_depthFirst .lattice {} .project .standard hmade List.mem_cons_self
    (fun _ n => n + 1) 0 with ⟨seen, hwalk, _, hreaches, _⟩
  change walk = _ at hwalk
  have hseen : seen.map Class.name = ["Left", "Base", "Right", "Top"] := by
    rw [hwalk] at hcalls
    simpa [Function.comp_def] using hcalls
  refine ⟨hcalls, by rw [hwalk], ?_⟩
  intro hhidden
  have hmem := (hreaches "Hidden").2 hhidden
  rw [hseen] at hmem
  simp at hmem

end LuaClasses
