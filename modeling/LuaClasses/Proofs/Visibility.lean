import LuaClasses.Proofs.Absence
import LuaClasses.Proofs.Lifetime

/-!
This module contains what code inside a class sees of the members of a class. A member is seen if it
and all others of its name may be used, so to be allowed more is never to see less. Two ways to look
at inheritance meet here: the walk over the ancestors finds the members, and the search along
declarations, which knows nothing of the walk, decides about the protected ones.
-/

namespace LuaClasses

open Query Relation

namespace Index

variable {i : Index} {scope scope' : Scope} {a b c : String}

theorem inheritsFrom_trans (hab : i.inheritsFrom scope a b = true)
    (hbc : i.inheritsFrom scope b c = true)
    : i.inheritsFrom scope a c = true := by
  rw [inheritsFrom_iff] at hab hbc ⊢
  exact hab.trans hbc

theorem inheritsFrom_widen (hscope : scope' = scope ∨ scope' = .project)
    (h : i.inheritsFrom scope a b = true)
    : i.inheritsFrom scope' a b = true := by
  rcases hscope with rfl | rfl
  . exact h
  -- Whatever a file declares, the project does.
  . rw [inheritsFrom_iff] at h ⊢
    exact TransGen.mono (fun _ _ hlink => ⟨rfl, hlink.2⟩) _ _ h

end Index

namespace Context

section Search

variable {ctx : Context} {c a : Class}

theorem classes_eq_of_declaration? {name : String} {header : Header}
    (h : ctx.declaration? name = some header)
    : ctx.index.classes[name]? = some header := by
  unfold declaration? Index.findClass Index.lookUp at h
  cases hfault : ctx.index.faults[name]? with
  | some fault => simp [hfault] at h
  | none =>
    cases hclass : ctx.index.classes[name]? with
    | none => simp [hfault, hclass] at h
    | some header' => simpa [hfault, hclass] using h

theorem IsDeclared.parentsOf_eq (h : ctx.IsDeclared c)
    : ctx.index.parentsOf c.name = (ctx.knownHeader c).parents := by
  rcases Option.map_eq_some_iff.1 h with ⟨header, hheader, hc⟩
  have horigin : c.origin.header = header := by
    rw [← hc]
    rfl
  unfold Index.parentsOf
  rw [classes_eq_of_declaration? hheader, knownHeader_of_cell?_eq_none h.cell?_eq_none, horigin]

theorem IsDeclared.link_of_superclass? (hc : ctx.IsDeclared c) (ha : a ∈ ctx.superclass? c)
    : ctx.index.Link .project c.name a.name := by
  refine ⟨rfl, ?_⟩
  rw [hc.parentsOf_eq]
  apply List.mem_append_left
  unfold superclass? at ha
  split at ha
  . next name hname =>
    split at ha
    . cases ha
    . rw [hname, name_eq_of_declared? ha]
      exact List.mem_singleton_self name
  . cases ha

theorem IsDeclared.link_of_mem_extended (hc : ctx.IsDeclared c) (ha : a ∈ ctx.extended c)
    : ctx.index.Link .project c.name a.name := by
  refine ⟨rfl, ?_⟩
  rw [hc.parentsOf_eq]
  apply List.mem_append_right
  rcases List.mem_filterMap.1 ha with ⟨name, hname, hdeclared⟩
  rw [name_eq_of_declared? hdeclared]
  exact (List.mem_filter.1 hname).1

/--
The search confirms every ancestor that the walk visits.
-/
theorem inheritsFrom_of_mem_lineage (hc : ctx.IsDeclared c) (ha : a ∈ ctx.lineage c)
    : ctx.index.inheritsFrom .project c.name a.name = true := by
  rw [Index.inheritsFrom_iff]
  -- Both parts of the walk stay among the declared classes that a path leads to.
  let p : Class → Prop := fun a =>
    ctx.IsDeclared a ∧ TransGen (ctx.index.Link .project) c.name a.name
  have hp : p a := by
    rcases List.mem_append.1 ha with ha | ha
    . apply chain_induct _ _ ha
      . intro d hd
        exact ⟨isDeclared_of_superclass? hd, .single (hc.link_of_superclass? hd)⟩
      . intro b d hb _ hd
        exact ⟨isDeclared_of_superclass? hd, hb.2.tail (hb.1.link_of_superclass? hd)⟩
    . apply forest_induct _ _ (mem_interfaceForest_of_walked ha)
      . intro d hd
        exact ⟨isDeclared_of_mem_extended hd, .single (hc.link_of_mem_extended hd)⟩
      . intro b d hb hd
        exact ⟨isDeclared_of_mem_extended hd, hb.2.tail (hb.1.link_of_mem_extended hd)⟩
  exact hp.2

end Search

section Shown

variable {ctx ctx' : Context} {c viewer viewer' : Class}

theorem mem_hiddenNames {pairs : List (Class × Member)} {name : String}
    : name ∈ ctx.hiddenNames viewer pairs
        ↔
      ∃ p ∈ pairs, ctx.usable viewer p.1 p.2 = false ∧ p.2.name = some name := by
  unfold hiddenNames
  simp [and_assoc]

/--
Whether a member is seen: it may be used, and so may all others of its name.
-/
def shown (ctx : Context) (viewer : Class) (pairs : List (Class × Member)) (p : Class × Member) :
    Bool :=
  ctx.usable viewer p.1 p.2 && !p.2.name.any (ctx.hiddenNames viewer pairs).contains

theorem shown_iff {pairs : List (Class × Member)} {p : Class × Member}
    : ctx.shown viewer pairs p = true
        ↔
      ctx.usable viewer p.1 p.2 = true ∧
      ∀ name ∈ p.2.name, ∀ q ∈ pairs, q.2.isNamed name = true →
        ctx.usable viewer q.1 q.2 = true := by
  have hnames : (!p.2.name.any (ctx.hiddenNames viewer pairs).contains) = true
      ↔ ∀ name ∈ p.2.name, name ∉ ctx.hiddenNames viewer pairs := by
    cases p.2.name <;> simp
  unfold shown
  rw [Bool.and_eq_true, hnames]
  simp only [mem_hiddenNames, Member.isNamed, beq_iff_eq]
  constructor
  . rintro ⟨husable, hhidden⟩
    refine ⟨husable, ?_⟩
    intro name hname q hq hnamed
    cases hq' : ctx.usable viewer q.1 q.2 with
    | true => rfl
    | false => exact absurd ⟨q, hq, hq', hnamed⟩ (hhidden name hname)
  . rintro ⟨husable, hall⟩
    refine ⟨husable, ?_⟩
    rintro name hname ⟨q, hq, hunusable, hnamed⟩
    rw [hall name hname q hq hnamed] at hunusable
    cases hunusable

theorem visiblePairs_eq_filter (c viewer : Class)
    : ctx.visiblePairs c viewer
        =
      (ctx.memberPairs c true).filter (ctx.shown viewer (ctx.memberPairs c true)) := by
  unfold visiblePairs visibleAmong shown
  rw [List.filter_filter]
  apply List.filter_congr
  intro p _
  apply Bool.and_comm

/--
Where more may be used, more is seen: a member that may now be used is shown, and it no longer keeps
the others of its name from being shown.
-/
theorem visiblePairs_sublist (hfacts : ctx.SameFacts ctx')
    (husable : ∀ a m, ctx.usable viewer a m = true → ctx'.usable viewer' a m = true) (c : Class)
    : (ctx.visiblePairs c viewer).Sublist (ctx'.visiblePairs c viewer') := by
  rw [visiblePairs_eq_filter, visiblePairs_eq_filter, hfacts.memberPairs_eq]
  apply List.monotone_filter_right
  intro p hp
  rcases shown_iff.1 hp with ⟨hself, hothers⟩
  apply shown_iff.2
  refine ⟨husable _ _ hself, ?_⟩
  intro name hname q hq hnamed
  apply husable
  exact hothers name hname q hq hnamed

theorem sameFacts_scope (index : Index) (options : Options) (scope scope' : Scope)
    : SameFacts { index, options, scope } { index, options, scope := scope' } :=
  ⟨rfl, rfl, rfl, rfl⟩

/--
Who inherits from a viewer may use what the viewer may use, and in the project no less than in one
of its files.
-/
theorem usable_mono {index : Index} {options : Options} {scope scope' : Scope}
    (hscope : scope' = scope ∨ scope' = .project)
    (hviewer : (viewer' == viewer) = true ∨
      index.inheritsFrom scope' viewer'.name viewer.name = true)
    {owner : Class} {m : Member}
    (h : usable { index, options, scope } viewer owner m = true)
    : usable { index, options, scope := scope' } viewer' owner m = true := by
  unfold usable at h ⊢
  cases hvisibility : m.visibility with
  | pub => rfl
  | priv =>
    rw [hvisibility] at h
    cases h
  | prot =>
    rw [hvisibility] at h
    simp only [Bool.or_eq_true, Class.beq_def, Bool.and_eq_true, beq_iff_eq] at h hviewer ⊢
    rcases h with ⟨hname, hflags⟩ | hinherits
    . rcases hviewer with ⟨hname', hflags'⟩ | hinherits
      . exact .inl ⟨hname.trans hname'.symm, hflags.trans hflags'.symm⟩
      . exact .inr (hname ▸ hinherits)
    . have hwider := Index.inheritsFrom_widen hscope hinherits
      rcases hviewer with ⟨hname', _⟩ | hinherits'
      . exact .inr (hname' ▸ hwider)
      . exact .inr (Index.inheritsFrom_trans hinherits' hwider)

theorem usable_of_mem_memberPairs {index : Index} {options : Options}
    (hc : IsDeclared { index, options, scope := .project } c) {a : Class} {m : Member}
    (h : (a, m) ∈ memberPairs { index, options, scope := .project } c true)
    : usable { index, options, scope := .project } c a m = (m.visibility != .priv) := by
  have hown : (a == c) = true ∨ index.inheritsFrom .project c.name a.name = true := by
    unfold memberPairs at h
    rcases List.mem_append.1 h with h | h
    . rcases List.mem_map.1 h with ⟨_, _, heq⟩
      cases heq
      exact .inl BEq.rfl
    . rcases List.mem_flatMap.1 h with ⟨b, hb, h⟩
      rcases List.mem_map.1 h with ⟨_, _, heq⟩
      cases heq
      exact .inr (inheritsFrom_of_mem_lineage hc hb)
  unfold usable
  cases m.visibility with
  | pub | priv => rfl
  | prot => exact Bool.or_eq_true_iff.2 hown

theorem shown_itself {index : Index} {options : Options}
    (hc : IsDeclared { index, options, scope := .project } c) {p : Class × Member}
    (hp : p ∈ memberPairs { index, options, scope := .project } c true)
    : let ctx : Context := { index, options, scope := .project }
      let pairs := ctx.memberPairs c true
      ctx.shown c pairs p
        =
      (p.2.visibility != .priv &&
        !p.2.name.any fun n => pairs.any fun q => q.2.visibility == .priv && q.2.isNamed n) := by
  intro ctx pairs
  have hhidden : (ctx.hiddenNames c pairs).contains
      = fun n => pairs.any fun q => q.2.visibility == .priv && q.2.isNamed n := by
    funext n
    rw [Bool.eq_iff_iff, List.contains_iff_mem, mem_hiddenNames, List.any_eq_true]
    apply exists_congr
    intro q
    apply and_congr_right
    intro hq
    rw [usable_of_mem_memberPairs hc hq]
    simp [Member.isNamed]
  unfold shown
  rw [usable_of_mem_memberPairs hc hp, hhidden]

end Shown

end Context

namespace Stage

/--
A moment of a run over an index that stays as it is.
-/
def Within (index : Index) (σ : Stage) : Prop :=
  ∃ limits ops, Runs (.start index limits) ops σ ∧ ∀ c, Operation.change c ∉ ops

variable {σ σ' : Stage} {w w' : World} {op : Operation}

theorem Step.coherent (h : Step w σ op w' σ') (hs : σ.state.Coherent { index := σ.index } w)
    : σ'.state.Coherent { index := σ.index } w' := by
  refine ⟨h.sound.atRest.cellCount_eq, ?_, h.sound.atRest.cell_eq_of_le⟩
  intro n name hname
  rcases h.cell_eq n with hsame | ⟨_, _, name', _, hname', hready⟩
  . rw [hsame]
    by_cases hn : n < w.length
    . have hold := List.getElem?_eq_getElem hn
      apply hs.cell_eq
      rw [hold, ← World.getElem?_of_prefix h.world_prefix hold, hname]
    . exact .inl (hs.cell_eq_of_le n (Nat.le_of_not_lt hn))
  . rw [hname, Option.some.injEq] at hname'
    exact .inr (hname' ▸ hready)

theorem apply_index (h : ∀ c, op ≠ .change c) : (σ.apply op).index = σ.index := by
  cases op with
  | change c => exact absurd rfl (h c)
  | make m | ask q | turnTo options scope guard => rfl

end Stage

theorem Runs.coherent {σ σ' : Stage} {ops : List Operation} (h : Runs σ ops σ')
    (hops : ∀ c, Operation.change c ∉ ops) {w : World} (hσ : σ.Sound w)
    (hs : σ.state.Coherent { index := σ.index } w)
    : ∃ w', σ'.Sound w' ∧ σ'.state.Coherent { index := σ.index } w' := by
  induction h generalizing w with
  | nil => exact ⟨w, hσ, hs⟩
  | @cons σ σ' op ops hop _ ih =>
    rcases hσ.step hop with ⟨w₁, hstep⟩
    have hindex : (σ.apply op).index = σ.index := by
      apply Stage.apply_index
      rintro c rfl
      exact hops c List.mem_cons_self
    rw [← hindex]
    apply ih (fun c hc => hops c (List.mem_cons_of_mem op hc)) hstep.sound
    rw [hindex]
    exact hstep.coherent hs

/--
At every moment of a run over one index, the cells and the class values fit to the index. Options
and scope do not matter for that.
-/
theorem Stage.Within.coherent {index : Index} {σ : Stage} (h : σ.Within index) (options : Options)
    (scope : Scope)
    : ∃ w, (∀ c ∈ σ.pool, c.Known w) ∧ σ.state.Coherent { index, options, scope } w := by
  rcases h with ⟨limits, ops, hrun, hops⟩
  rcases hrun.coherent hops (Stage.start_sound index limits)
    (QueryState.fresh_coherent _ limits) with ⟨w, hsound, hcoherent⟩
  exact ⟨w, hsound.known, hcoherent.cellCount_eq, hcoherent.cell_eq, hcoherent.cell_eq_of_le⟩

/--
At every moment of a run over one index, a class is seen as the index has it.
-/
theorem Stage.Within.reads_eq {index : Index} {σ : Stage} (h : σ.Within index) {options : Options}
    {scope : Scope} {c : Class} (hc : c ∈ σ.pool) {q : Query α} {f : Class → α}
    (hq : Context.Reads { index, options, scope } c q f)
    (hf : f (Context.settled { index, options, scope } c) = f c)
    : (q.run σ.state).1 = f c := by
  rcases h.coherent options scope with ⟨w, hknown, hcoherent⟩
  exact (hq.answers (hknown c hc) hf σ.state hcoherent).1

theorem visible_to_itself (index : Index) (options : Options) (s : QueryState)
    {name : String} {c : Class}
    (hc : ((({ index, options, scope := .project } : Context).resolve name).run s).1 = some c)
    : let ctx : Context := { index, options, scope := .project }
      let listed := ((ctx.members c true).run s).1
      ((ctx.visibleMembers c c).run s).1
        =
      listed.filter fun p => p.2.visibility != .priv &&
        !p.2.name.any fun n => listed.any fun q => q.2.visibility == .priv && q.2.isNamed n := by
  intro ctx listed
  have hresolved : ((ctx.resolve name).run s).1 = ctx.declared? name :=
    (Context.resolve_finds name s).1
  have hc : ctx.IsDeclared c := Context.isDeclared_of_declared? (hresolved.symm.trans hc)
  have hlisted : listed = ctx.memberPairs c true :=
    ((Context.members_reads c true).finds hc.cell?_eq_none s).1
  have hvisible : ((ctx.visibleMembers c c).run s).1 = ctx.visiblePairs c c :=
    ((Context.visibleMembers_reads c c).finds hc.cell?_eq_none s).1
  rw [hvisible, hlisted, Context.visiblePairs_eq_filter]
  apply List.filter_congr
  intro p hp
  exact Context.shown_itself hc hp

/--
A class whose superclasses have a protected and a private member. Its interface has a public member
of the same name as the private one. One of the declarations stands in a file.
-/
def Index.kennel : Index :=
  let i : Index := {}
  let i := i.declare { name := "Puppy", header := {
    superName := some "Dog", interfaceNames := ["Pet"] } }
  let i := i.declareIn { name := "Dog", header := { superName := some "Animal" } } "dog.lua"
  let i := i.declare { name := "Animal", header := {} }
  let i := i.declare { name := "Pet", header := { isInterface := true } }
  let i := i.addMember "Animal" (.new "legs" .prot (.named "number"))
  let i := i.addMember "Animal" (.new "mood" .priv (.named "string"))
  let i := i.addMember "Pet" (.new "mood" .pub (.named "string"))
  i.addMember "Pet" (.new "owner" .prot (.named "string"))

theorem visible_to_itself_puppy
    : let ctx : Context := { index := .kennel }
      let s := QueryState.fresh .standard
      let puppy := Class.ofDecl { name := "Puppy", header := {
        superName := some "Dog", interfaceNames := ["Pet"] } }
      let listed := ((ctx.members puppy true).run s).1
      let visible := ((ctx.visibleMembers puppy puppy).run s).1
      ((ctx.resolve "Puppy").run s).1 = some puppy ∧
      listed.map (·.2.name) = [some "legs", some "mood", some "mood", some "owner"] ∧
      visible.map (·.2.name) = [some "legs", some "owner"] ∧
      visible = listed.filter fun p => p.2.visibility != .priv &&
        !p.2.name.any fun n => listed.any fun q => q.2.visibility == .priv && q.2.isNamed n := by
  intro ctx s puppy listed visible
  have hresolved : ((ctx.resolve "Puppy").run s).1 = some puppy := rfl
  exact ⟨hresolved, by decide +kernel, by decide +kernel,
    visible_to_itself .kennel {} s hresolved⟩

theorem visibleMembers_sublist (index : Index) (options : Options) {σ σ' : Stage}
    (h : σ.Within index) (h' : σ'.Within index) {c : Class} (hc : c ∈ σ.pool) (hc' : c ∈ σ'.pool)
    {scope scope' : Scope} (hscope : scope' = scope ∨ scope' = .project) {viewer viewer' : Class}
    (hviewer : (viewer' == viewer) = true ∨
      index.inheritsFrom scope' viewer'.name viewer.name = true)
    : let ctx : Context := { index, options, scope }
      let ctx' : Context := { index, options, scope := scope' }
      ((ctx.visibleMembers c viewer).run σ.state).1.Sublist
        ((ctx'.visibleMembers c viewer').run σ'.state).1 := by
  intro ctx ctx'
  have hvisible : ((ctx.visibleMembers c viewer).run σ.state).1 = ctx.visiblePairs c viewer := by
    apply h.reads_eq hc (Context.visibleMembers_reads c viewer)
    rw [(ctx.alike_settled c).memberPairsAs_eq]
  have hvisible' : ((ctx'.visibleMembers c viewer').run σ'.state).1
      = ctx'.visiblePairs c viewer' := by
    apply h'.reads_eq hc' (Context.visibleMembers_reads c viewer')
    rw [(ctx'.alike_settled c).memberPairsAs_eq]
  rw [hvisible, hvisible']
  apply Context.visiblePairs_sublist (Context.sameFacts_scope index options scope scope')
  intro a m
  exact Context.usable_mono hscope hviewer

theorem visibleMembers_sublist_puppy
    : let ctx : Context := { index := .kennel, scope := .file "dog.lua" }
      let ctx' : Context := { index := .kennel }
      let puppy := Class.referenceAt "Puppy" 0
      let animal := Class.ofDecl { name := "Animal", header := {} }
      let made := (Stage.start .kennel .standard).apply (.make (.reference "Puppy"))
      let asked := made.apply (.ask (.request (.ancestors puppy)))
      let visible := ((ctx.visibleMembers puppy animal).run made.state).1
      let visible' := ((ctx'.visibleMembers puppy puppy).run asked.state).1
      Index.kennel.inheritsFrom .project "Puppy" "Animal" = true ∧
      visible.map (·.2.name) = [some "legs"] ∧
      visible'.map (·.2.name) = [some "legs", some "owner"] ∧
      visible.Sublist visible' := by
  intro ctx ctx' puppy animal made asked visible visible'
  have hmem : puppy ∈ made.pool := List.mem_singleton_self puppy
  have hover : (Operation.ask (.request (.ancestors puppy))).Over made.pool :=
    fun c hc => List.mem_singleton.1 hc ▸ hmem
  have hmade : made.Within .kennel :=
    ⟨.standard, [.make (.reference "Puppy")], .cons trivial .nil, by simp⟩
  have hasked : asked.Within .kennel :=
    ⟨.standard, [.make (.reference "Puppy"), .ask (.request (.ancestors puppy))],
      .cons trivial (.cons hover .nil), by simp⟩
  have hinherits : Index.kennel.inheritsFrom .project "Puppy" "Animal" = true := by
    decide +kernel
  refine ⟨hinherits, by decide +kernel, by decide +kernel, ?_⟩
  exact visibleMembers_sublist .kennel {} hmade hasked hmem (List.mem_append_left _ hmem)
    (.inr rfl) (.inr hinherits)

end LuaClasses
