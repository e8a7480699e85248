import LuaClasses.Proofs.Cells
import LuaClasses.Proofs.Session

/-!
This module contains the proof that every request keeps to the cells that it may fill. A request
about a class fills what settling the class fills. The subtype check comes to further classes, which
were made for their cells on the way.
-/

namespace LuaClasses

open Query

namespace Context

variable (ctx : Context) [ctx.Quiet]

/--
Queries that keep to the cells they may fill. What is related to the answer does not matter.
-/
def keeping : StagedRelation Query Query where
  Stage := World
  Later := (· <+: ·)
  Holds w q _ R := Keeps ctx w q fun w' a => ∃ b, R w' a b
  trans := List.IsPrefix.trans
  mono := Keeps.mono
  pure h := Keeps.pure fun w' hw => ⟨_, h w' hw⟩
  bind hq hf := hq.bind fun w' a hw ⟨b, hab⟩ => hf w' a b hw hab

variable {ctx} {w : World} {c : Class}

omit [ctx.Quiet] in
theorem keeping_same_iff {q q' : Query α} : ctx.keeping.Same w q q' ↔ Safe ctx w q := by
  change Keeps ctx w q (fun _ a => ∃ b, a = b) ↔ _
  constructor
  . exact fun h => h.weaken fun _ _ _ => trivial
  . exact fun h => h.weaken fun _ a _ => ⟨a, rfl⟩

variable (ctx)

def kept : ctx.checker.Correspondence ctx.checker where
  toStagedRelation := ctx.keeping
  Sim w c d := c.Known w ∧ c = d
  Inside w _ w' := w <+: w'
  Fits _ := Eq
  similar h := h.2 ▸ Class.Similar.refl _
  sim_later h hw := ⟨h.1.mono hw, h.2⟩
  sim_inside h hw := ⟨h.1.mono hw, h.2⟩
  fits_later h _ := h
  fits_inside h _ := Nat.succ.inj h
  fits_zero h := h ▸ Iff.rfl
  settle h := keeping_same_iff.2 (Keeps.settle h.1)
  hasAncestor hc _ := keeping_same_iff.2 (Keeps.safe_of_reads (anyAncestor_reads _ _) hc.1)
  isInterface h := keeping_same_iff.2 (Keeps.safe_of_reads (isInterface_reads _) h.1)
  ownMembers h := keeping_same_iff.2 (Keeps.safe_of_reads (ownMembers_reads _) h.1)
  findMember name h := keeping_same_iff.2 (Keeps.safe_of_reads (findMemberOf_reads _ name) h.1)
  infer m := by
    intro w' s hw hs
    rcases Keeps.of_makes (ctx.infer_makes m) w' s hw hs with ⟨w'', hw'', hs', hevolves, ht⟩
    exact ⟨w'', hw'', hs', hevolves, _, Ty.paired_self fun c hc => ⟨ht.known c hc, rfl⟩⟩
  beyond _ := .pure false
  note e := keeping_same_iff.2 (Keeps.safe_of_finds (.note e))
  within hc hd h := by
    apply StagedRelation.Same.within (congrArg Class.name hc.2) (congrArg Class.name hd.2)
    . exact fun key => keeping_same_iff.2 (Keeps.of_eq fun _ => ⟨fun _ => rfl, rfl⟩)
    . exact fun key => keeping_same_iff.2 (Keeps.of_eq fun _ => ⟨fun _ => rfl, rfl⟩)
    . exact fun e => keeping_same_iff.2 (Keeps.safe_of_finds (.note e))
    . exact h _ (List.prefix_refl _)

variable {ctx}

theorem kept_bound : ctx.kept.Holds w ctx.checker.bound ctx.checker.bound ctx.kept.Fits :=
  keeping_same_iff.2 (Keeps.of_eq fun _ => ⟨fun _ => rfl, rfl⟩)

theorem kept_paired {t : Ty Class} (h : t.All (Class.Known w)) : t.Paired (ctx.kept.Sim w) t :=
  Ty.paired_self fun c hc => ⟨h c hc, rfl⟩

theorem isSubtype_safe {source target : Ty Class} (hsource : source.All (Class.Known w))
    (htarget : target.All (Class.Known w)) (strict : Bool)
    : Safe ctx w (ctx.isSubtype source target strict) :=
  keeping_same_iff.1
    (ctx.kept.isSubtype kept_bound strict (kept_paired hsource) (kept_paired htarget))

theorem isSubclass_safe (hc : c.Known w) {target : Ty Class} (htarget : target.All (Class.Known w))
    (strict : Bool)
    : Safe ctx w (ctx.isSubclass c target strict) :=
  keeping_same_iff.1 (ctx.kept.isSubclass kept_bound strict ⟨hc, rfl⟩ (kept_paired htarget))

theorem recoverAlias_keeps (hc : c.Known w) {substitute : Ty Class → Ty Class}
    (hsubstitute : ∀ w' t, w <+: w' → t.All (Class.Known w') →
      (substitute t).All (Class.Known w'))
    : Keeps ctx w (ctx.recoverAlias c substitute) fun w' t => t.All (Class.Known w') := by
  have hself : Keeps ctx w (pure (Ty.cls c)) fun w' t => t.All (Class.Known w') :=
    Keeps.pure fun _ hw => Ty.all_cls.2 (hc.mono hw)
  unfold recoverAlias
  change Keeps ctx w (if c.isAnonymous || c.isGlobal || c.isDocTableRef then _ else _) _
  split
  . exact hself
  . apply (Keeps.safe_of_finds (findAlias_finds _)).andThen
    intro found
    cases found with
    | none => exact hself
    | some a =>
      apply (Keeps.safe_of_finds (.note _)).andThen
      intro _
      apply (Keeps.of_makes ((Ty.ofExpr a.type).instantiate_makes w)).bind
      intro w₁ t hw₁ ht
      exact Keeps.pure fun w₂ hw₂ => hsubstitute w₂ t (hw₁.trans hw₂) (ht.known.mono hw₂)

theorem findKeyMember_safe (hc : c.Known w) (key : Key) : Safe ctx w (ctx.findKeyMember c key) := by
  cases key with
  | number text => exact Keeps.safe_of_reads (findEither_reads c _ _) hc
  | string text => exact Keeps.safe_of_reads (findEither_reads c _ _) hc
  | other => exact Keeps.silent _

theorem keyType_keeps (hc : c.Known w) (key : Key)
    : Keeps ctx w (ctx.keyType c key) fun w' t => ∀ u ∈ t, u.All (Class.Known w') := by
  apply (findKeyMember_safe hc key).andThen
  intro found
  cases found with
  | none => exact Keeps.pure fun _ _ => nofun
  | some m =>
    apply (Keeps.of_makes (ctx.infer_makes m)).bind
    intro w₁ t _ ht
    apply Keeps.pure
    intro w₂ hw₂ u hu
    cases hu
    exact ht.known.mono hw₂

end Context

namespace Request

variable {ctx : Context} [ctx.Quiet] {w : World}

omit [ctx.Quiet] in
theorem answer_keeps {q : Query α} {good : World → α → Prop} (f : α → Answer)
    (hq : Keeps ctx w q good) (h : ∀ w' a, good w' a → ∀ c ∈ (f a).mentions, c.Known w')
    : Keeps ctx w (do return f (← q)) fun w' a => ∀ c ∈ a.mentions, c.Known w' := by
  apply hq.bind
  intro w₁ a _ ha
  apply Keeps.pure
  intro w₂ hw₂ c hc
  exact (h w₁ a ha c hc).mono hw₂

theorem reads_keeps {c : Class} {q : Query α} {f : Class → α} (r : α → Answer)
    (hq : ctx.Reads c q f) (hc : c.Known w)
    (h : ∀ w' d, c.Known w' → ∀ a ∈ (r (f d)).mentions, a.Known w')
    : Keeps ctx w (do return r (← q)) fun w' a => ∀ c ∈ a.mentions, c.Known w' := by
  have hkeeps : Keeps ctx w q fun w' a => ∀ d ∈ (r a).mentions, d.Known w' :=
    Keeps.of_reads hq hc fun w' d hw => h w' d (hc.mono hw)
  exact answer_keeps r hkeeps fun _ _ ha => ha

/--
Every request keeps to the cells that it may fill, and mentions classes of the world only.
-/
theorem run_keeps {pool : List Class} (hpool : ∀ c ∈ pool, c.Known w) {r : Request}
    (hr : r.Over pool)
    : Keeps ctx w (r.run ctx) fun w' a => ∀ c ∈ a.mentions, c.Known w' := by
  cases r with
  | ancestors c =>
    apply reads_keeps _ (Context.ancestors_reads c) (hpool c (hr c List.mem_cons_self))
    intro w' d _ a ha
    exact Class.known_of_cell?_eq_none (Context.cell?_eq_none_of_mem_lineage ha)
  | interfaces c goesOn =>
    apply reads_keeps (fun walk => .walk walk.1 walk.2) (interfaces_reads c goesOn)
      (hpool c (hr c List.mem_cons_self))
    intro w' d _ a ha
    rcases mem_of_mem_visitAll goesOn ha with ha | ha
    . cases ha
    . exact Class.known_of_cell?_eq_none (Context.cell?_eq_none_of_mem_interfaceForest ha)
  | ownMembers c =>
    apply reads_keeps _ (Context.ownMembers_reads c) (hpool c (hr c List.mem_cons_self))
    exact fun _ _ _ => List.forall_mem_nil _
  | members c deep =>
    apply reads_keeps _ (Context.members_reads c deep) (hpool c (hr c List.mem_cons_self))
    intro w' d hc
    exact List.forall_mem_map.2 fun _ hp => Context.known_of_mem_memberPairsAs hc hp
  | visibleMembers c viewer =>
    apply reads_keeps _ (Context.visibleMembers_reads c viewer) (hpool c (hr c List.mem_cons_self))
    intro w' d hc
    exact List.forall_mem_map.2 fun _ hp =>
      Context.known_of_mem_memberPairsAs hc (List.mem_filter.1 (List.mem_filter.1 hp).1).1
  | findMember c name =>
    apply reads_keeps _ (Context.findMemberOf_reads c name) (hpool c (hr c List.mem_cons_self))
    exact fun _ _ _ => List.forall_mem_nil _
  | keyType c key =>
    apply answer_keeps _ (Context.keyType_keeps (hpool c (hr c List.mem_cons_self)) key)
    intro w' t ht
    cases t with
    | none => exact List.forall_mem_nil _
    | some u => exact ht u rfl
  | alternateNames c =>
    apply reads_keeps _ (Context.alternateNames_reads c) (hpool c (hr c List.mem_cons_self))
    exact fun _ _ _ => List.forall_mem_nil _
  | recoverAlias c substitution =>
    rcases hr with ⟨hc, hclasses⟩
    have hsubstitute : ∀ w' t, w <+: w' → t.All (Class.Known w') →
        (substitution.apply t).All (Class.Known w') := by
      intro w' t hw ht d hd
      rcases hclasses t d hd with hd | hd
      . exact ht d hd
      . exact (hpool d hd).mono hw
    apply answer_keeps _ (Context.recoverAlias_keeps (hpool c hc) hsubstitute)
    exact fun _ _ ht => ht
  | subtype source target strict =>
    have hsource : source.All (Class.Known w) :=
      fun c hc => hpool c (hr c (List.mem_append_left _ hc))
    have htarget : target.All (Class.Known w) :=
      fun c hc => hpool c (hr c (List.mem_append_right _ hc))
    apply answer_keeps _ (Context.isSubtype_safe hsource htarget strict)
    exact fun _ _ _ => List.forall_mem_nil _
  | subclass c target strict =>
    have htarget : target.All (Class.Known w) :=
      fun d hd => hpool d (hr d (List.mem_cons_of_mem c hd))
    apply answer_keeps _
      (Context.isSubclass_safe (hpool c (hr c List.mem_cons_self)) htarget strict)
    exact fun _ _ _ => List.forall_mem_nil _

end Request

end LuaClasses
