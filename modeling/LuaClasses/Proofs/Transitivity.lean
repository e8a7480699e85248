import LuaClasses.Proofs.SameName
import LuaClasses.Proofs.References
import LuaClasses.Proofs.Walk

/-!
This module contains the ancestors of ancestors. A superclass of a superclass is an ancestor, and so
is an interface that is extended by an interface. But the interfaces of a superclass are not among
the ancestors of a class, and neither are the superclasses of an interface. Where the two kinds of
steps are mixed, only a comparison of members can make up for it.
-/

namespace LuaClasses

namespace Context

variable {ctx : Context} {c d a b : Class}

section Declared

theorem name_eq_of_declared? {name : String} (h : ctx.declared? name = some c) : c.name = name := by
  rcases Option.map_eq_some_iff.1 h with ⟨header, _, rfl⟩
  rfl

/--
Whether a class is the one that its name is declared as.
-/
def IsDeclared (ctx : Context) (c : Class) : Prop :=
  ctx.declared? c.name = some c

theorem isDeclared_of_declared? {name : String} (h : ctx.declared? name = some c)
    : ctx.IsDeclared c := by
  unfold IsDeclared
  rw [name_eq_of_declared? h, h]

theorem IsDeclared.eq (hc : ctx.IsDeclared c) (hd : ctx.IsDeclared d) (hname : c.name = d.name)
    : c = d := by
  unfold IsDeclared at hc hd
  rw [hname, hd, Option.some.injEq] at hc
  exact hc.symm

theorem IsDeclared.cell?_eq_none (h : ctx.IsDeclared c) : c.origin.cell? = none :=
  cell?_eq_none_of_declared? h

theorem IsDeclared.erase_eq (h : ctx.IsDeclared c) : c.erase = c := by
  rcases Option.map_eq_some_iff.1 h with ⟨header, _, hc⟩
  rw [← hc]
  rfl

theorem IsDeclared.alike (h : ctx.IsDeclared c) : ctx.Alike c (.reference c.name) := by
  rcases Option.map_eq_some_iff.1 h with ⟨header, hheader, hc⟩
  have hknown : ctx.knownHeader (.reference c.name) = header := by
    change (ctx.declaration? c.name).getD {} = header
    rw [hheader, Option.getD_some]
  rw [← hc] at hknown ⊢
  exact ⟨⟨rfl, rfl, rfl, rfl⟩, hknown.symm⟩

theorem isDeclared_of_superclass? (h : a ∈ ctx.superclass? c) : ctx.IsDeclared a := by
  unfold superclass? at h
  split at h
  . split at h
    . cases h
    . exact isDeclared_of_declared? h
  . cases h

theorem isDeclared_of_mem_extended (h : a ∈ ctx.extended c) : ctx.IsDeclared a := by
  rcases List.mem_filterMap.1 h with ⟨name, _, hname⟩
  exact isDeclared_of_declared? hname

theorem IsDeclared.mem_poolFrom (h : ctx.IsDeclared a) (hne : a.name ≠ c.name)
    : a.name ∈ ctx.poolFrom c :=
  Context.mem_poolFrom.2 ⟨name_mem_classNames_of_declared? h, hne⟩

end Declared

section Climb

variable {pool : Pool} {next : Option Class}

theorem mem_chain_of_mem (hnext : a ∈ next) (hpool : a.name ∈ pool)
    : a ∈ (ctx.chain pool next).1 := by
  cases hnext
  rw [chain]
  simp only [dif_pos hpool]
  split
  . exact List.mem_singleton_self a
  . exact List.mem_cons_self

/--
The classes on a climb are closed under superclasses, as far as the pool goes.
-/
theorem chain_closed (hnext : ∀ c ∈ next, ctx.IsDeclared c) (ha : a ∈ (ctx.chain pool next).1)
    (hclass : (ctx.knownHeader a).isInterface = false) (hb : b ∈ ctx.superclass? a)
    (hpool : b.name ∈ pool)
    : b ∈ (ctx.chain pool next).1 := by
  fun_induction chain ctx pool next with
  | case1 => cases ha
  | case2 pool c _ hinterface =>
    rw [List.mem_singleton.1 ha, hinterface] at hclass
    cases hclass
  | case3 pool c hc _ rest ih =>
    by_cases hname : b.name = c.name
    . rw [(isDeclared_of_superclass? hb).eq (hnext c rfl) hname]
      exact List.mem_cons_self
    . have hpool' : b.name ∈ pool.remove c.name := Pool.mem_remove.2 ⟨hpool, hname⟩
      apply List.mem_cons_of_mem
      rcases List.mem_cons.1 ha with rfl | ha
      . exact mem_chain_of_mem hb hpool'
      . exact ih (fun _ => isDeclared_of_superclass?) ha hpool'
  | case4 => cases ha

theorem superclasses_trans (hc : ctx.IsDeclared c) (hd : d ∈ (ctx.superclasses c).1)
    (hclass : (ctx.knownHeader d).isInterface = false) (ha : a ∈ (ctx.superclasses d).1)
    (hne : a.name ≠ c.name)
    : a ∈ (ctx.superclasses c).1 := by
  -- Together with its start, a climb is closed under superclasses even where it closes a cycle.
  let p : Class → Prop := fun a => a = c ∨ a ∈ (ctx.superclasses c).1
  have hclosed : ∀ a b, p a → (ctx.knownHeader a).isInterface = false → b ∈ ctx.superclass? a →
      p b := by
    intro a b ha hclass hb
    have hdeclared := isDeclared_of_superclass? hb
    by_cases hname : b.name = c.name
    . exact .inl (hdeclared.eq hc hname)
    . have hpool := hdeclared.mem_poolFrom hname
      rcases ha with rfl | ha
      . exact .inr (mem_chain_of_mem hb hpool)
      . exact .inr (chain_closed (fun _ => isDeclared_of_superclass?) ha hclass hb hpool)
  have hp : p a := chain_induct (fun _ => hclosed d _ (.inr hd) hclass) hclosed ha
  rcases hp with rfl | hp
  . exact absurd rfl hne
  . exact hp

end Climb

section Forest

variable {pool : Pool} {pending rest : List Class}

theorem isDeclared_of_pendingFrom (hpending : ∀ c ∈ pending, ctx.IsDeclared c)
    (hfrom : pool.pendingFrom Class.name pending = c :: rest)
    : ctx.IsDeclared c ∧ ∀ a ∈ ctx.extended c ++ rest, ctx.IsDeclared a := by
  have hsubset := Pool.subset_of_pendingFrom hfrom
  refine ⟨hpending c (hsubset List.mem_cons_self), ?_⟩
  intro a ha
  rcases List.mem_append.1 ha with ha | ha
  . exact isDeclared_of_mem_extended ha
  . exact hpending a (hsubset (List.mem_cons_of_mem c ha))

theorem mem_forest_of_mem (hpending : ∀ c ∈ pending, ctx.IsDeclared c) (ha : a ∈ pending)
    (hpool : a.name ∈ pool)
    : a ∈ ctx.forest pool pending := by
  fun_induction forest ctx pool pending with
  | case1 pool pending hfrom =>
    have hmem := Pool.mem_pendingFrom ha hpool
    rw [hfrom] at hmem
    cases hmem
  | case2 pool pending c rest hfrom ih =>
    rcases isDeclared_of_pendingFrom hpending hfrom with ⟨hc, hrest⟩
    have hmem := Pool.mem_pendingFrom ha hpool
    rw [hfrom] at hmem
    by_cases hname : a.name = c.name
    . rw [(hpending a ha).eq hc hname]
      exact List.mem_cons_self
    . rcases List.mem_cons.1 hmem with rfl | hmem
      . exact absurd rfl hname
      . apply List.mem_cons_of_mem
        exact ih hrest (List.mem_append_right _ hmem) (Pool.mem_remove.2 ⟨hpool, hname⟩)

/--
The classes of a forest are closed under the interfaces they extend, as far as the pool goes.
-/
theorem forest_closed (hpending : ∀ c ∈ pending, ctx.IsDeclared c)
    (ha : a ∈ ctx.forest pool pending) (hb : b ∈ ctx.extended a) (hpool : b.name ∈ pool)
    : b ∈ ctx.forest pool pending := by
  fun_induction forest ctx pool pending with
  | case1 => cases ha
  | case2 pool pending c rest hfrom ih =>
    rcases isDeclared_of_pendingFrom hpending hfrom with ⟨hc, hrest⟩
    by_cases hname : b.name = c.name
    . rw [(isDeclared_of_mem_extended hb).eq hc hname]
      exact List.mem_cons_self
    . have hpool' : b.name ∈ pool.remove c.name := Pool.mem_remove.2 ⟨hpool, hname⟩
      apply List.mem_cons_of_mem
      rcases List.mem_cons.1 ha with rfl | ha
      . exact mem_forest_of_mem hrest (List.mem_append_left _ hb) hpool'
      . exact ih hrest ha hpool'

theorem interfaceForest_trans (hc : ctx.IsDeclared c) (hd : d ∈ ctx.interfaceForest c)
    (ha : a ∈ ctx.interfaceForest d) (hne : a.name ≠ c.name)
    : a ∈ ctx.interfaceForest c := by
  let p : Class → Prop := fun a => a = c ∨ a ∈ ctx.interfaceForest c
  have hclosed : ∀ a b, p a → b ∈ ctx.extended a → p b := by
    intro a b ha hb
    have hdeclared := isDeclared_of_mem_extended hb
    by_cases hname : b.name = c.name
    . exact .inl (hdeclared.eq hc hname)
    . have hpool := hdeclared.mem_poolFrom hname
      rcases ha with rfl | ha
      . exact .inr (mem_forest_of_mem (fun _ => isDeclared_of_mem_extended) hb hpool)
      . exact .inr (forest_closed (fun _ => isDeclared_of_mem_extended) ha hb hpool)
  have hp : p a := forest_induct (fun _ => hclosed d _ (.inr hd)) hclosed ha
  rcases hp with rfl | hp
  . exact absurd rfl hne
  . exact hp

end Forest

section Lineage

/--
The interfaces that a walk over the ancestors of a class gets to see.
-/
def walkedInterfaces (ctx : Context) (c : Class) : List Class :=
  if (ctx.superclasses c).2 then [] else ctx.interfaceForest c

theorem mem_interfaceForest_of_walked (h : a ∈ ctx.walkedInterfaces c)
    : a ∈ ctx.interfaceForest c := by
  unfold walkedInterfaces at h
  split at h
  . cases h
  . exact h

theorem isDeclared_of_mem_lineage (h : a ∈ ctx.lineage c) : ctx.IsDeclared a := by
  rcases List.mem_append.1 h with h | h
  . exact chain_induct (fun _ => isDeclared_of_superclass?)
      (fun _ _ _ _ => isDeclared_of_superclass?) h
  . exact forest_induct (fun _ => isDeclared_of_mem_extended)
      (fun _ _ _ => isDeclared_of_mem_extended) (mem_interfaceForest_of_walked h)

theorem mem_lineage_iff_any (hd : ctx.IsDeclared d)
    : d ∈ ctx.lineage c ↔ (ctx.lineage c).any (· == d) = true := by
  rw [List.any_eq_true]
  constructor
  . intro h
    exact ⟨d, h, BEq.rfl⟩
  . rintro ⟨a, ha, heq⟩
    rw [Class.beq_def, Bool.and_eq_true, beq_iff_eq] at heq
    rwa [← (isDeclared_of_mem_lineage ha).eq hd heq.1]

/--
Whether `b` is reached from `c`, and `a` from `b`, by steps of one kind.
-/
inductive SameKind (ctx : Context) (c b a : Class) : Prop where
  | superclasses : b ∈ (ctx.superclasses c).1 → (ctx.knownHeader b).isInterface = false →
      a ∈ (ctx.superclasses b).1 → SameKind ctx c b a
  | interfaces : b ∈ ctx.walkedInterfaces c → a ∈ ctx.walkedInterfaces b → SameKind ctx c b a

theorem SameKind.mem_lineage (h : ctx.SameKind c b a) (hc : ctx.IsDeclared c)
    (hne : a.name ≠ c.name)
    : a ∈ ctx.lineage c := by
  cases h with
  | superclasses hb hclass ha =>
    exact List.mem_append_left _ (superclasses_trans hc hb hclass ha hne)
  | interfaces hb ha =>
    have hforest := interfaceForest_trans hc (mem_interfaceForest_of_walked hb)
      (mem_interfaceForest_of_walked ha) hne
    apply List.mem_append_right
    -- The walk over the interfaces of `c` has seen `b`, so it was not left out.
    unfold walkedInterfaces at hb
    split at hb
    . cases hb
    . next hwalked => rwa [if_neg hwalked]

end Lineage

section Credit

variable {strict : Bool} {R : Ty Class → Ty Class → Prop} {c' d' : Class}

theorem Provides.of_alike (h : ctx.Provides R c d) (hc : ctx.Alike c c') (hd : ctx.Alike d d')
    : ctx.Provides R c' d' := by
  have hmember : ctx.member? c = ctx.member? c' := funext hc.member?_eq
  unfold Provides ProvidesMember at h ⊢
  rwa [← hd.ownMemberList_eq, ← hmember]

theorem Step.of_alike (h : ctx.Step strict R (.cls c) (.cls d)) (hc : ctx.Alike c c')
    (hd : ctx.Alike d d')
    : ctx.Step strict R (.cls c') (.cls d') := by
  have hbeq : ∀ a : Class, (a == d) = (a == d') :=
    fun a => (Class.Similar.refl a).beq_eq hd.toSimilar
  cases h.classStep with
  | same h =>
    apply Step.same
    change (c' == d') = true
    rwa [← hc.beq_eq hd.toSimilar]
  | ancestor h =>
    apply Step.ancestor
    rw [← hc.lineage_eq]
    simpa only [hbeq] using h
  | interface hinterface h =>
    rw [hd.knownHeader_eq] at hinterface
    exact .interface hinterface (h.of_alike hc hd)

/--
Between classes that are just what their names refer to, nothing is taken on credit.
-/
theorem RelatedOnCredit.related (h : ctx.RelatedOnCredit strict c d)
    (hc : ctx.Alike c (.reference c.name)) (hd : ctx.Alike d (.reference d.name))
    : ctx.Related strict (.cls c) (.cls d) := by
  have h' : ctx.RelatedUpTo strict
      (fun s t => Assumed ctx [(c.name, d.name)] s t ∨ False) (.cls c) (.cls d) :=
    RelatedUpTo.mono h fun _ _ => .inl
  apply RelatedUpTo.related
  refine RelatedUpTo.accumulate ?_ (.inl h')
  intro s t hassumed
  cases hassumed with
  | intro hmem _ =>
    cases List.mem_singleton.1 hmem
    exact h'.dest.of_alike hc hd

end Credit

end Context

theorem Guarded.isSubclass_of_lineage {ctx : Context} {c d : Class}
    (h : (ctx.lineage c).any (· == d) = true) (strict : Bool) (g : Guard (String × String))
    : ((isSubclass ctx c (.cls d) strict).run g).1 = true := by
  unfold isSubclass Checker.isSubclass
  rw [run_bind, bound_run, checkClass_cls, isRelated_eq, if_pos h]
  split <;> rfl

section Verdict

variable {ctx : Context} [ctx.Quiet] {limits : Limits} {history : List Request} {pool : List Class}
  {s : QueryState} {c d : Class}

theorem Context.IsDeclared.ancestors_eq (hc : ctx.IsDeclared c) (s : QueryState)
    : ((ctx.ancestors c).run s).1 = ctx.lineage c :=
  ((Context.ancestors_reads c).finds hc.cell?_eq_none s).1

/--
The verdict on two declared classes is that of the subtype relation, unless a limit was hit; and an
ancestor is never rejected.
-/
theorem Session.verdict_of_declared (h : Session ctx limits history pool s)
    (hc : ctx.IsDeclared c) (hd : ctx.IsDeclared d) (strict : Bool)
    : let result := (ctx.isSubclass c (.cls d) strict).run s
      (d ∈ ctx.lineage c → result.1 = true) ∧
      (result.1 = true → ctx.Related strict (.cls c) (.cls d)) ∧
      (result.2.guard.exceeded = false → ctx.Related strict (.cls c) (.cls d) →
        result.1 = true) := by
  intro result
  rcases h.invariant with ⟨w, hs, _, hready⟩
  have hknown := Class.known_of_cell?_eq_none (w := w) hc.cell?_eq_none
  have hknown' := Class.known_of_cell?_eq_none (w := w) hd.cell?_eq_none
  rcases Context.isSubclass_mirrors hknown (Ty.all_cls.2 hknown') strict w s
    (List.prefix_refl w) hs with ⟨_, _, _, hguard, hanswer⟩
  have herase : (Ty.cls d).erase = Ty.cls d := congrArg Ty.cls hd.erase_eq
  rw [hc.erase_eq, herase] at hguard hanswer
  rcases Guarded.isSubclass_decides c d s.guard hready.toAt with ⟨_, _, hsound, hcomplete⟩
  refine ⟨?_, ?_, ?_⟩
  . intro hlineage
    have hany := (Context.mem_lineage_iff_any hd).1 hlineage
    exact hanswer.trans (Guarded.isSubclass_of_lineage hany strict s.guard)
  . intro haccepts
    exact (hsound (hanswer ▸ haccepts)).related hc.alike hd.alike
  . intro hlimit hrelated
    exact hanswer.trans (hcomplete (hguard ▸ hlimit) (.of_related hrelated))

end Verdict

open Query

theorem ancestor_of_ancestor (index : Index) (options : Options) (scope : Scope)
    (limits : Limits) {history : List Request} {pool : List Class} {s : QueryState}
    (h : Session { index, options, scope } limits history pool s) {name : String} {c b a : Class}
    (hc : ((({ index, options, scope } : Context).resolve name).run s).1 = some c)
    (hb : b ∈ ((({ index, options, scope } : Context).ancestors c).run s).1)
    (ha : a ∈ ((({ index, options, scope } : Context).ancestors b).run s).1)
    (hne : a.name ≠ c.name)
    : let ctx : Context := { index, options, scope }
      let ancestors := ((ctx.ancestors c).run s).1
      let verdict := fun strict => (ctx.isSubclass c (.cls a) strict).run s
      (∀ e ∈ [c, b],
        ((ctx.ancestors e).run s).1 = (ctx.superclasses e).1 ++ ctx.walkedInterfaces e) ∧
      (ctx.SameKind c b a → a ∈ ancestors) ∧
      (a ∈ ancestors → ∀ strict, (verdict strict).1 = true) ∧
      (∀ strict, (verdict strict).1 = true →
        a ∈ ancestors ∨
        (ctx.knownHeader a).isInterface = true ∧ ctx.Provides (ctx.Related strict) c a) ∧
      (∀ strict, (verdict strict).2.guard.exceeded = false →
        (ctx.knownHeader a).isInterface = true → ctx.Provides (ctx.Related strict) c a →
        (verdict strict).1 = true) := by
  intro ctx ancestors verdict
  have hresolved : ((ctx.resolve name).run s).1 = ctx.declared? name :=
    (Context.resolve_finds name s).1
  have hc : ctx.IsDeclared c := Context.isDeclared_of_declared? (hresolved.symm.trans hc)
  have hancestors : ancestors = ctx.lineage c := hc.ancestors_eq s
  rw [hc.ancestors_eq s] at hb
  have hb : ctx.IsDeclared b := Context.isDeclared_of_mem_lineage hb
  rw [hb.ancestors_eq s] at ha
  have ha : ctx.IsDeclared a := Context.isDeclared_of_mem_lineage ha
  rw [hancestors]
  refine ⟨?_, fun hkind => hkind.mem_lineage hc hne, ?_, ?_, ?_⟩
  . intro e he
    have he : ctx.IsDeclared e := by
      simp only [List.mem_cons, List.not_mem_nil, or_false] at he
      rcases he with rfl | rfl <;> assumption
    exact he.ancestors_eq s
  . intro hmem strict
    exact (h.verdict_of_declared hc ha strict).1 hmem
  . intro strict haccepts
    cases ((h.verdict_of_declared hc ha strict).2.1 haccepts).dest.classStep with
    | same hsame =>
      rw [Class.beq_def, Bool.and_eq_true, beq_iff_eq] at hsame
      exact absurd hsame.1.symm hne
    | ancestor hany => exact .inl ((Context.mem_lineage_iff_any ha).2 hany)
    | interface hinterface hprovides => exact .inr ⟨hinterface, hprovides⟩
  . intro strict hlimit hinterface hprovides
    apply (h.verdict_of_declared hc ha strict).2.2 hlimit
    apply Context.RelatedUpTo.related
    apply Context.RelatedUpTo.step
    exact (Context.Step.interface hinterface hprovides).mono
      fun _ _ hrelated => .inl (.of_related hrelated)

theorem ancestor_of_ancestor_puppy
    : let ctx : Context := { index := .pets }
      let s := QueryState.fresh .standard
      let puppy := Class.ofDecl { name := "Puppy", header := {
        superName := some "Dog", interfaceNames := ["Pet"], aliasName := some "Whelp" } }
      let dog := Class.ofDecl { name := "Dog", header := { superName := some "Animal" } }
      let animal := Class.ofDecl { name := "Animal", header := {} }
      ((ctx.resolve "Puppy").run s).1 = some puppy ∧
      dog ∈ ((ctx.ancestors puppy).run s).1 ∧
      animal ∈ ((ctx.ancestors dog).run s).1 ∧
      ∀ strict, ((ctx.isSubclass puppy (.cls animal) strict).run s).1 = true := by
  intro ctx s puppy dog animal
  have hstart : Session ctx .standard [] [] s := .start
  have hresolved : ((ctx.resolve "Puppy").run s).1 = some puppy := rfl
  have hdeclared : ctx.declared? "Puppy" = some puppy := rfl
  have hdeclared' : ctx.declared? "Dog" = some dog := rfl
  have hdog : dog ∈ (ctx.superclasses puppy).1 :=
    Context.mem_chain_of_mem rfl (by decide +kernel)
  have hanimal : animal ∈ (ctx.superclasses dog).1 :=
    Context.mem_chain_of_mem rfl (by decide +kernel)
  have hancestor : dog ∈ ((ctx.ancestors puppy).run s).1 := by
    rw [(Context.isDeclared_of_declared? hdeclared).ancestors_eq s]
    exact List.mem_append_left _ hdog
  have hancestor' : animal ∈ ((ctx.ancestors dog).run s).1 := by
    rw [(Context.isDeclared_of_declared? hdeclared').ancestors_eq s]
    exact List.mem_append_left _ hanimal
  rcases ancestor_of_ancestor .pets {} .project .standard hstart hresolved hancestor hancestor'
    (by decide) with ⟨_, hmem, hverdict, _⟩
  exact ⟨hresolved, hancestor, hancestor', hverdict (hmem (.superclasses hdog rfl hanimal))⟩

/--
A class that does not itself have what an interface of its superclass asks for.
-/
def Index.nameless : Index :=
  let i : Index := {}
  let i := i.declare { name := "Dog", header := { superName := some "Animal" } }
  let i := i.declare { name := "Animal", header := { interfaceNames := ["Named"] } }
  let i := i.declare { name := "Named", header := { isInterface := true } }
  i.addMember "Named" (.new "name" .pub (.named "string"))

theorem interface_of_superclass_rejected
    : let ctx : Context := { index := .nameless }
      let s := QueryState.fresh .standard
      let dog := Class.ofDecl { name := "Dog", header := { superName := some "Animal" } }
      let animal := Class.ofDecl { name := "Animal", header := { interfaceNames := ["Named"] } }
      let named := Class.ofDecl { name := "Named", header := { isInterface := true } }
      ((ctx.ancestors dog).run s).1.map Class.name = ["Animal"] ∧
      ((ctx.ancestors animal).run s).1.map Class.name = ["Named"] ∧
      ∀ strict, ((ctx.isSubclass dog (.cls named) strict).run s).1 = false := by
  refine ⟨?_, ?_, ?_⟩ <;> decide +kernel

end LuaClasses
