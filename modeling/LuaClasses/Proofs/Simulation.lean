import LuaClasses.Proofs.Guarded
import LuaClasses.Proofs.Making

/-!
This module contains the simulation of the subtype check by the one without cells. Queries make new
cells on the way, for the classes in the types of members, so a query is followed from one world to
a larger one.
-/

namespace LuaClasses

namespace Query

/--
In every coherent state of `w` and of larger worlds, the query does to the guard what `p` does, and
its answer is related to that of `p`.
-/
def Follows (ctx : Context) (w : World) (q : Query α) (p : Guarded β)
    (rel : World → α → β → Prop) : Prop :=
  ∀ w' s, w <+: w' → s.Coherent ctx w' →
    ∃ w'', w' <+: w'' ∧ (q.run s).2.Coherent ctx w'' ∧
      (q.run s).2.guard = (p.run s.guard).2 ∧ rel w'' (q.run s).1 (p.run s.guard).1

/--
The query answers what `p` answers.
-/
def Mirrors (ctx : Context) (w : World) (q : Query α) (p : Guarded α) : Prop :=
  Follows ctx w q p fun _ a b => a = b

namespace Follows

variable {ctx : Context} {w : World}

theorem mono {w' : World} {q : Query α} {p : Guarded β} {rel : World → α → β → Prop}
    (h : Follows ctx w q p rel) (hw : w <+: w')
    : Follows ctx w' q p rel :=
  fun _ s hw' hs => h _ s (hw.trans hw') hs

theorem bind {q : Query α} {p : Guarded β} {f : α → Query γ} {g : β → Guarded δ}
    {rel : World → α → β → Prop} {rel' : World → γ → δ → Prop} (hq : Follows ctx w q p rel)
    (hf : ∀ w' a b, w <+: w' → rel w' a b → Follows ctx w' (f a) (g b) rel')
    : Follows ctx w (q >>= f) (p >>= g) rel' := by
  intro w₁ s hw₁ hs
  rcases hq w₁ s hw₁ hs with ⟨w₂, hw₂, hs₂, hguard, hrel⟩
  rcases hf w₂ _ _ (hw₁.trans hw₂) hrel w₂ _ (List.prefix_refl w₂) hs₂ with
    ⟨w₃, hw₃, hs₃, hguard', hrel'⟩
  rw [hguard] at hguard' hrel'
  exact ⟨w₃, hw₂.trans hw₃, hs₃, hguard', hrel'⟩

theorem pure {a : α} {b : β} {rel : World → α → β → Prop}
    (h : ∀ w', w <+: w' → rel w' a b)
    : Follows ctx w (Pure.pure a) (Pure.pure b) rel :=
  fun w' _ hw hs => ⟨w', List.prefix_refl w', hs, rfl, h w' hw⟩

theorem bind_answers {q : Query α} {f : α → Query γ} {p : Guarded δ} {a : α}
    {rel : World → γ → δ → Prop} (hq : ∀ w', w <+: w' → Answers ctx w' q a)
    (hf : Follows ctx w (f a) p rel)
    : Follows ctx w (q >>= f) p rel := by
  intro w₁ s hw₁ hs
  rcases hq w₁ hw₁ s hs with ⟨ha, hs', hguard⟩
  rcases hf w₁ _ hw₁ hs' with ⟨w₂, hw₂, hs₂, hguard', hrel⟩
  rw [run_bind, ha]
  rw [hguard] at hguard' hrel
  exact ⟨w₂, hw₂, hs₂, hguard', hrel⟩

end Follows

/--
A query that does nothing to cells, and does to the guard what the check does.
-/
theorem Mirrors.of_eq {ctx : Context} {w : World} {q : Query α} {p : Guarded α}
    (h : ∀ s, (∀ n, (q.run s).2.cell n = s.cell n) ∧ (q.run s).2.cellCount = s.cellCount ∧
      (q.run s).2.guard = (p.run s.guard).2 ∧ (q.run s).1 = (p.run s.guard).1)
    : Mirrors ctx w q p := by
  intro w' s _ hs
  rcases h s with ⟨hcell, hcount, hguard, hanswer⟩
  exact ⟨w', List.prefix_refl w', hs.of_eq hcell hcount, hguard, hanswer⟩

/--
The query leaves the guard alone, and what it answers is as it should be.
-/
def Yields (ctx : Context) (w : World) (q : Query α) (good : World → α → Prop) : Prop :=
  Follows ctx w q (Pure.pure ()) fun w' a _ => good w' a

namespace Yields

variable {ctx : Context} {w : World} {good : World → α → Prop}

theorem pure {a : α} (h : ∀ w', w <+: w' → good w' a) : Yields ctx w (Pure.pure a) good :=
  Follows.pure h

theorem follows {q : Query α} {f : α → Query β} {p : Guarded γ} {rel : World → β → γ → Prop}
    (hq : Yields ctx w q good)
    (hf : ∀ w' a, w <+: w' → good w' a → Follows ctx w' (f a) p rel)
    : Follows ctx w (q >>= f) p rel := by
  have hbind : Follows ctx w (q >>= f) (Pure.pure () >>= fun _ => p) rel :=
    Follows.bind hq fun w' a _ => hf w' a
  rwa [pure_bind] at hbind

theorem bind {q : Query α} {f : α → Query β} {good' : World → β → Prop}
    (hq : Yields ctx w q good)
    (hf : ∀ w' a, w <+: w' → good w' a → Yields ctx w' (f a) good')
    : Yields ctx w (q >>= f) good' :=
  hq.follows hf

end Yields

theorem Makes.yields {ctx : Context} {w : World} {q : Query α} {good : World → α → Prop}
    (hq : Makes w q good)
    : Yields ctx w q good := by
  intro w' s hw hs
  rcases hq w' s hw hs.cellCount_eq with ⟨w'', hw'', hcount, hcell, hguard, hanswer⟩
  exact ⟨w'', hw'', hs.grow hw'' hcell hcount, hguard, hanswer⟩

end Query

theorem Ty.paired_erase {w : World} {t : Ty Class} (h : t.All (Class.Known w))
    : Paired (fun c d => c.Known w ∧ d = c.erase) t t.erase := by
  have hmap : Paired (fun c d => c.Known w ∧ d = c.erase) (t.map id) t.erase :=
    paired_map fun c hc => ⟨h c hc, rfl⟩
  rwa [map_id] at hmap

namespace Context

open Query

variable (ctx : Context) [ctx.Quiet]

/--
Queries that follow checks without cells, with worlds as stages.
-/
def following : StagedRelation Query Guarded where
  Stage := World
  Later := (· <+: ·)
  Holds := Follows ctx
  trans := List.IsPrefix.trans
  mono := Follows.mono
  pure := Follows.pure
  bind := Follows.bind

variable {ctx} {w : World}

theorem reads_mirrors {q : Query α} {f : Class → α} {c : Class} (hq : ctx.Reads c q f)
    (hc : c.Known w) (hf : ∀ d, ctx.Alike d c → f d = f c)
    : Mirrors ctx w q (pure (f c.erase)) := by
  have hmirrors : Mirrors ctx w (q >>= pure) (pure (f c.erase)) := by
    apply Follows.bind_answers fun _ hw => hq.answers (hc.mono hw) (hf _ (ctx.alike_settled c))
    exact Follows.pure fun _ _ => (hf _ (ctx.alike_erase c)).symm
  rwa [bind_pure] at hmirrors

variable (ctx)

def mirrored : ctx.checker.Correspondence (Guarded.checker ctx) where
  toStagedRelation := ctx.following
  Sim w c d := c.Known w ∧ d = c.erase
  Inside w _ w' := w <+: w'
  Fits _ := Eq
  similar h := h.2 ▸ Class.similar_erase _
  sim_later h hw := ⟨h.1.mono hw, h.2⟩
  sim_inside h hw := ⟨h.1.mono hw, h.2⟩
  fits_later h _ := h
  fits_inside h _ := Nat.succ.inj h
  fits_zero h := h ▸ Iff.rfl
  settle h := reads_mirrors (settle_reads _) h.1 fun _ _ => rfl
  hasAncestor := by
    rintro w c _ d _ ⟨hc, rfl⟩ ⟨_, rfl⟩
    exact reads_mirrors (anyAncestor_reads c _) hc fun a h => by rw [h.lineage_eq]
  isInterface := by
    rintro w c _ ⟨hc, rfl⟩
    exact reads_mirrors (isInterface_reads c) hc fun a h => by rw [h.knownHeader_eq]
  ownMembers := by
    rintro w c _ ⟨hc, rfl⟩
    exact reads_mirrors (ownMembers_reads c) hc fun a h => h.ownMemberList_eq
  findMember := by
    rintro w c _ name ⟨hc, rfl⟩
    exact reads_mirrors (findMemberOf_reads c name) hc fun a h => h.member?_eq name
  infer m := by
    intro w' s hw hs
    rcases (ctx.infer_makes m).yields w' s hw hs with ⟨w'', hw'', hs', hguard, hinstance⟩
    refine ⟨w'', hw'', hs', hguard, ?_⟩
    have hlower : (Ty.ofExpr m.type).map Class.reference = Ty.lower m.type := rfl
    have hpaired := Ty.paired_erase hinstance.known
    rwa [hinstance.erase_eq, hlower] at hpaired
  beyond _ := .pure false
  note _ := Mirrors.of_eq fun _ => ⟨fun _ => rfl, rfl, rfl, rfl⟩
  within hc hd h := by
    apply StagedRelation.Same.within (congrArg Class.name hc.2).symm (congrArg Class.name hd.2).symm
    . exact fun key => Mirrors.of_eq fun _ => ⟨fun _ => rfl, rfl, rfl, rfl⟩
    . exact fun key => Mirrors.of_eq fun _ => ⟨fun _ => rfl, rfl, rfl, rfl⟩
    . exact fun e => Mirrors.of_eq fun _ => ⟨fun _ => rfl, rfl, rfl, rfl⟩
    . exact h _ (List.prefix_refl _)

variable {ctx} {w : World}

omit [ctx.Quiet] in
theorem bound_mirrors : Mirrors ctx w ctx.checker.bound (Guarded.checker ctx).bound :=
  Mirrors.of_eq fun _ => ⟨fun _ => rfl, rfl, rfl, rfl⟩

theorem isSubtype_mirrors {source target : Ty Class} (hsource : source.All (Class.Known w))
    (htarget : target.All (Class.Known w)) (strict : Bool)
    : Mirrors ctx w (ctx.isSubtype source target strict)
        (Guarded.isSubtype ctx source.erase target.erase strict) :=
  ctx.mirrored.isSubtype bound_mirrors strict (Ty.paired_erase hsource) (Ty.paired_erase htarget)

theorem isSubclass_mirrors {c : Class} (hc : c.Known w) {target : Ty Class}
    (htarget : target.All (Class.Known w)) (strict : Bool)
    : Mirrors ctx w (ctx.isSubclass c target strict)
        (Guarded.isSubclass ctx c.erase target.erase strict) :=
  ctx.mirrored.isSubclass bound_mirrors strict ⟨hc, rfl⟩ (Ty.paired_erase htarget)

end Context

end LuaClasses
