import LuaClasses.Proofs.Members

/-!
This module contains the subtype relation that the subtype check is about: the largest relation in
which every pair is justified by one step. The types of members may lead back to the classes that
have them, so a pair may take part in its own justification.
-/

namespace LuaClasses

namespace Context

/--
Whether a class has a member of the name of `required`, at a type that `R` relates to the required
one.
-/
def ProvidesMember (ctx : Context) (R : Ty Class → Ty Class → Prop) (c : Class)
    (required : Member) : Prop :=
  ∃ provided, required.name.bind (ctx.member? c) = some provided ∧
    R (.lower provided.type) (.lower required.type)

/--
Whether a class provides every member that an interface has itself.
-/
def Provides (ctx : Context) (R : Ty Class → Ty Class → Prop) (c interface : Class) : Prop :=
  ∀ required ∈ ctx.ownMemberList interface, ctx.ProvidesMember R c required

/--
What one step of the subtype check can rely on to accept a pair of types, where `R` stands for the
verdicts on the pairs that it asks about.
-/
inductive Step (ctx : Context) (strict : Bool) (R : Ty Class → Ty Class → Prop) :
    Ty Class → Ty Class → Prop where
  | same {s t} : (s == t) = true → Step ctx strict R s t
  | top {s t} : t.isTop = true → Step ctx strict R s t
  | wild {s t} : s.isWild = true → strict = false → Step ctx strict R s t
  | each {members t} : (∀ s ∈ members, R s t) → Step ctx strict R (.union members) t
  /-- The members of a union are tried one by one, unless the source is of a kind of its own. -/
  | some {s members t} : s.isWild = false → s.isUnion = false → t ∈ members → R s t →
      Step ctx strict R s (.union members)
  | table {c t} : t.isTable = true → Step ctx strict R (.cls c) t
  | emptyTable {c element} : c.isEmptyTable = true → Step ctx strict R (.cls c) (.array element)
  | ancestor {c d} : (ctx.lineage c).any (· == d) = true → Step ctx strict R (.cls c) (.cls d)
  | interface {c d} : (ctx.knownHeader d).isInterface = true → ctx.Provides R c d →
      Step ctx strict R (.cls c) (.cls d)
  | arrayTable {element} : Step ctx strict R (.array element) (.primitive .table)
  | element {s t} : R s t → Step ctx strict R (.array s) (.array t)
  | params {base base' params params'} : (base == base') = true →
      params.length = params'.length → (∀ p ∈ params.zip params', R p.1 p.2) →
      Step ctx strict R (.generic base params) (.generic base' params')
  | base {base params t} : t.isUnion = false → t.isGeneric = false → R base t →
      Step ctx strict R (.generic base params) t

/--
The largest relation in which every pair is justified by one step.
-/
def Related (ctx : Context) (strict : Bool) (s t : Ty Class) : Prop :=
  ∃ R : Ty Class → Ty Class → Prop, (∀ s t, R s t → ctx.Step strict R s t) ∧ R s t

variable {ctx : Context} {strict : Bool} {R R' H X : Ty Class → Ty Class → Prop}

theorem Provides.mono {c d : Class} (h : ctx.Provides R c d) (hR : ∀ s t, R s t → R' s t)
    : ctx.Provides R' c d := by
  intro required hrequired
  rcases h required hrequired with ⟨provided, hprovided, hrelated⟩
  exact ⟨provided, hprovided, hR _ _ hrelated⟩

theorem Step.mono {s t : Ty Class} (h : ctx.Step strict R s t) (hR : ∀ s t, R s t → R' s t)
    : ctx.Step strict R' s t := by
  cases h with
  | same h => exact .same h
  | top h => exact .top h
  | wild hs h => exact .wild hs h
  | each h => exact .each fun s hs => hR _ _ (h s hs)
  | some hwild hunion ht h => exact .some hwild hunion ht (hR _ _ h)
  | table h => exact .table h
  | emptyTable h => exact .emptyTable h
  | ancestor h => exact .ancestor h
  | interface hd h => exact .interface hd (h.mono hR)
  | arrayTable => exact .arrayTable
  | element h => exact .element (hR _ _ h)
  | params hbase hlength h => exact .params hbase hlength fun p hp => hR _ _ (h p hp)
  | base hunion hgeneric h => exact .base hunion hgeneric (hR _ _ h)

theorem Related.dest {s t : Ty Class} (h : ctx.Related strict s t)
    : ctx.Step strict (ctx.Related strict) s t := by
  rcases h with ⟨R, hR, hst⟩
  exact (hR s t hst).mono fun _ _ h => ⟨R, hR, h⟩

/--
The largest relation in which every pair is justified by one step that may also rely on `H`.
-/
def RelatedUpTo (ctx : Context) (strict : Bool) (H : Ty Class → Ty Class → Prop)
    (s t : Ty Class) : Prop :=
  ∃ R : Ty Class → Ty Class → Prop,
    (∀ s t, R s t → ctx.Step strict (fun s t => R s t ∨ H s t) s t) ∧ R s t

namespace RelatedUpTo

theorem dest {s t : Ty Class} (h : ctx.RelatedUpTo strict H s t)
    : ctx.Step strict (fun s t => ctx.RelatedUpTo strict H s t ∨ H s t) s t := by
  rcases h with ⟨R, hR, hst⟩
  exact (hR s t hst).mono fun _ _ h => h.imp_left fun h => ⟨R, hR, h⟩

/--
What may be relied on can be given up for pairs that are justified by relying on it.
-/
theorem accumulate
    (hX : ∀ s t, X s t → ctx.Step strict
      (fun s t => ctx.RelatedUpTo strict (fun s t => X s t ∨ H s t) s t ∨ X s t ∨ H s t) s t)
    {s t : Ty Class} (h : ctx.RelatedUpTo strict (fun s t => X s t ∨ H s t) s t ∨ X s t)
    : ctx.RelatedUpTo strict H s t := by
  refine ⟨fun s t => ctx.RelatedUpTo strict (fun s t => X s t ∨ H s t) s t ∨ X s t, ?_, h⟩
  intro s t hst
  have hstep : ctx.Step strict
      (fun s t => ctx.RelatedUpTo strict (fun s t => X s t ∨ H s t) s t ∨ X s t ∨ H s t) s t := by
    cases hst with
    | inl h => exact h.dest
    | inr h => exact hX s t h
  exact hstep.mono fun _ _ h => or_assoc.2 h

theorem mono {H' : Ty Class → Ty Class → Prop} {s t : Ty Class}
    (h : ctx.RelatedUpTo strict H s t) (hH : ∀ s t, H s t → H' s t)
    : ctx.RelatedUpTo strict H' s t := by
  rcases h with ⟨R, hR, hst⟩
  exact ⟨R, fun s t h => (hR s t h).mono fun s t h => h.imp_right (hH s t), hst⟩

theorem step {s t : Ty Class}
    (h : ctx.Step strict (fun s t => ctx.RelatedUpTo strict H s t ∨ H s t) s t)
    : ctx.RelatedUpTo strict H s t := by
  -- The relation that justifies the pair is the largest one, with the pair itself added to it.
  refine ⟨fun a b => (a = s ∧ b = t) ∨ ctx.RelatedUpTo strict H a b, ?_, .inl ⟨rfl, rfl⟩⟩
  intro a b hab
  rcases hab with ⟨rfl, rfl⟩ | hab
  . exact h.mono fun _ _ h => h.imp_left .inr
  . exact hab.dest.mono fun _ _ h => h.imp_left .inr

theorem of_related {s t : Ty Class} (h : ctx.Related strict s t)
    : ctx.RelatedUpTo strict H s t := by
  rcases h with ⟨R, hR, hst⟩
  exact ⟨R, fun s t h => (hR s t h).mono fun _ _ => .inl, hst⟩

theorem related {s t : Ty Class} (h : ctx.RelatedUpTo strict (fun _ _ => False) s t)
    : ctx.Related strict s t := by
  rcases h with ⟨R, hR, hst⟩
  exact ⟨R, fun s t h => (hR s t h).mono fun _ _ h => h.resolve_right id, hst⟩

end RelatedUpTo

end Context

end LuaClasses
