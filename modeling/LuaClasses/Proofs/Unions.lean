import LuaClasses.Proofs.Session

/-!
This module contains the laws of unions for the subtype check: a union is accepted where each of its
members is, and it accepts what one of its members accepts. A strict check breaks them for the types
any, unknown and nil, which it refuses before it looks at the members of the target.
-/

namespace LuaClasses

namespace Ty

/--
What verdicts on pairs of types have to do with unions.
-/
structure UnionRules (strict : Bool) (V : Ty Class → Ty Class → Bool) : Prop where
  same : ∀ {s t}, (s == t) = true → V s t = true
  top : ∀ {s t}, t.isTop = true → V s t = true
  wild : ∀ {s t}, s.isWild = true → V s t = (s == t || t.isTop || !strict)
  source : ∀ {sources t},
    V (.union sources) t = (.union sources == t || t.isTop || sources.all (V · t))
  target : ∀ {s members}, s.isWild = false → s.isUnion = false →
    V s (.union members) = members.any (V s ·)

/--
The types that a strict check refuses where the union `target` is expected, whatever its members
accept.
-/
inductive Blocked (target : Ty Class) : Ty Class → Prop where
  | wild {s} : s.isWild = true → Blocked target s
  | member {s sources} : (.union sources == target) = false → s ∈ sources → Blocked target s →
      Blocked target (.union sources)

/--
The members of a union, their members, and so on.
-/
inductive Nested (t : Ty Class) : Ty Class → Prop where
  | member {members} : t ∈ members → Nested t (.union members)
  | deeper {u members} : Nested t u → u ∈ members → Nested t (.union members)

theorem Nested.of_mem {t u : Ty Class} {members : List (Ty Class)} (h : Nested (.union members) u)
    (ht : t ∈ members)
    : Nested t u := by
  induction h with
  | member hu => exact .deeper (.member ht) hu
  | deeper _ hu ih => exact .deeper ih hu

theorem exists_mem_of_beqList {ss ts : List (Ty Class)} (h : beqList ss ts = true) {s : Ty Class}
    (hs : s ∈ ss)
    : ∃ t ∈ ts, (s == t) = true := by
  induction ss generalizing ts with
  | nil => cases hs
  | cons a rest ih =>
    cases ts with
    | nil => cases h
    | cons b ts =>
      simp only [beqList, Bool.and_eq_true] at h
      rcases List.mem_cons.1 hs with rfl | hs
      . exact ⟨b, List.mem_cons_self, h.1⟩
      . rcases ih h.2 hs with ⟨t, ht, heq⟩
        exact ⟨t, List.mem_cons_of_mem b ht, heq⟩

theorem exists_members_of_beq {sources : List (Ty Class)} {t : Ty Class}
    (h : (.union sources == t) = true)
    : ∃ members, t = .union members ∧ ∀ s ∈ sources, ∃ m ∈ members, (s == m) = true := by
  cases t with
  | union members => exact ⟨members, rfl, fun s hs => exists_mem_of_beqList h hs⟩
  | _ => cases h

namespace UnionRules

variable {strict : Bool} {V : Ty Class → Ty Class → Bool} (h : UnionRules strict V)

include h in
theorem accepts_of_nested {s t u : Ty Class} (hwild : s.isWild = false)
    (hunion : s.isUnion = false) (hnested : Nested t u) (hst : V s t = true)
    : V s u = true := by
  induction hnested with
  | member ht =>
    rw [h.target hwild hunion, List.any_eq_true]
    exact ⟨t, ht, hst⟩
  | deeper _ hu ih =>
    rw [h.target hwild hunion, List.any_eq_true]
    exact ⟨_, hu, ih⟩

include h in
theorem accepts_of_not_blocked {s t u : Ty Class} (hnested : Nested t u) (hst : V s t = true)
    (hblocked : strict = true → ¬Blocked u s)
    : V s u = true := by
  induction s generalizing t with
  | any | unknown | nil =>
    cases strict with
    | true => exact absurd (.wild rfl) (hblocked rfl)
    | false =>
      rw [h.wild rfl]
      simp
  | union sources ih =>
    rw [h.source]
    cases hsame : Ty.union sources == u with
    | true => rfl
    | false =>
      have hall : ∀ s ∈ sources, V s u = true := by
        intro s hs
        have hfree : strict = true → ¬Blocked u s :=
          fun hstrict hs' => hblocked hstrict (.member hsame hs hs')
        rw [h.source] at hst
        simp only [Bool.or_eq_true, List.all_eq_true] at hst
        rcases hst with (hst | htop) | hall
        -- The source is nested in the target itself, and so are its members.
        . rcases exists_members_of_beq hst with ⟨members, rfl, hmembers⟩
          rcases hmembers s hs with ⟨m, hm, heq⟩
          exact ih s hs (hnested.of_mem hm) (h.same heq) hfree
        . exact ih s hs hnested (h.top htop) hfree
        . exact ih s hs hnested (hall s hs) hfree
      simp only [Bool.or_eq_true, List.all_eq_true]
      exact .inr hall
  | primitive p | cls c | array element | generic base params =>
    exact h.accepts_of_nested rfl rfl hnested hst

include h in
theorem not_blocked_of_accepts {s : Ty Class} {members : List (Ty Class)} (hstrict : strict = true)
    (hs : V s (.union members) = true)
    : ¬Blocked (.union members) s := by
  intro hblocked
  induction hblocked with
  | @wild s hwild =>
    rw [h.wild hwild, hstrict] at hs
    cases s <;> cases hwild <;> cases hs
  | member hne hmem _ ih =>
    rw [h.source, hne] at hs
    simp only [isTop, Bool.or_self, Bool.false_or, List.all_eq_true] at hs
    exact ih (hs _ hmem)

include h in
theorem accepts_union_iff {s m : Ty Class} {members : List (Ty Class)} (hm : m ∈ members)
    (hs : V s m = true)
    : V s (.union members) = true ↔ ¬(strict = true ∧ Blocked (.union members) s) := by
  constructor
  . intro hu hblocked
    exact h.not_blocked_of_accepts hblocked.1 hu hblocked.2
  . intro hfree
    exact h.accepts_of_not_blocked (.member hm) hs fun hstrict hs => hfree ⟨hstrict, hs⟩

include h in
theorem union_accepted_iff {sources : List (Ty Class)} {t : Ty Class}
    : (V (.union sources) t = true ↔ ∀ s ∈ sources, V s t = true) ↔
        ¬(strict = true ∧ (.union sources == t) = true ∧ ∃ s ∈ sources, Blocked t s) := by
  constructor
  . rintro hlaw ⟨hstrict, hsame, s, hs, hblocked⟩
    rcases exists_members_of_beq hsame with ⟨members, rfl, _⟩
    exact h.not_blocked_of_accepts hstrict (hlaw.1 (h.same hsame) s hs) hblocked
  . intro hfree
    constructor
    . intro hu s hs
      rw [h.source] at hu
      simp only [Bool.or_eq_true, List.all_eq_true] at hu
      rcases hu with (hsame | htop) | hall
      . have hsame' := hsame
        rcases exists_members_of_beq hsame with ⟨members, rfl, hmembers⟩
        rcases hmembers s hs with ⟨m, hm, heq⟩
        rw [h.accepts_union_iff hm (h.same heq)]
        exact fun hblocked => hfree ⟨hblocked.1, hsame', s, hs, hblocked.2⟩
      . exact h.top htop
      . exact hall s hs
    . intro hall
      rw [h.source]
      simp only [Bool.or_eq_true, List.all_eq_true]
      exact .inr hall

end UnionRules

end Ty

namespace Guarded

section Run

variable {limits : Limits} {g g' : Guard (String × String)} (hg : g.Ready limits [])
  (hg' : g'.Ready limits [])

include hg hg' in
theorem allM_run {p : α → Guarded Bool} (h : ∀ x, Agree limits [] (p x) (p x)) (xs : List α)
    : ((xs.allM p).run g').1 = xs.all fun x => ((p x).run g).1 := by
  induction xs generalizing g' with
  | nil => rfl
  | cons x rest ih =>
    rcases h x g g' ⟨hg, hg', nofun⟩ with ⟨hanswer, halike⟩
    rw [List.allM_cons, run_bind, List.all_cons, hanswer]
    cases ((p x).run g').1 with
    | true => exact ih halike.right
    | false => rfl

include hg hg' in
theorem anyM_run {p : α → Guarded Bool} (h : ∀ x, Agree limits [] (p x) (p x)) (xs : List α)
    : ((xs.anyM p).run g').1 = xs.any fun x => ((p x).run g).1 := by
  induction xs generalizing g' with
  | nil => rfl
  | cons x rest ih =>
    rcases h x g g' ⟨hg, hg', nofun⟩ with ⟨hanswer, halike⟩
    rw [List.anyM_cons, run_bind, List.any_cons, hanswer]
    cases ((p x).run g').1 with
    | true => rfl
    | false => exact ih halike.right

end Run

theorem check_eq_acceptedBy (classCheck : Class → Ty Class → Guarded Bool) (strict : Bool)
    {s : Ty Class} (hwild : s.isWild = false) (hunion : s.isUnion = false)
    : ∃ accepts, ∀ t, Ty.check classCheck strict s t = Ty.acceptedBy s accepts t := by
  cases s with
  | any | unknown | nil => cases hwild
  | union members => cases hunion
  | primitive p | cls c | array element | generic base params => exact ⟨_, fun _ => rfl⟩

theorem acceptedBy_eq_of_same {s t : Ty Class} (accepts : Ty Class → Guarded Bool)
    (h : (s == t) = true)
    : Ty.acceptedBy s accepts t = pure true := by
  unfold Ty.acceptedBy
  rw [if_pos h]

theorem acceptedBy_eq_of_top (s : Ty Class) {t : Ty Class} (accepts : Ty Class → Guarded Bool)
    (h : t.isTop = true)
    : Ty.acceptedBy s accepts t = pure true := by
  unfold Ty.acceptedBy
  split
  . rfl
  . cases t <;> cases h <;> rfl

theorem check_unionRules {classCheck : Class → Ty Class → Guarded Bool} {strict : Bool}
    {limits : Limits}
    (h : ∀ s t, Agree limits [] (Ty.check classCheck strict s t) (Ty.check classCheck strict s t))
    {g : Guard (String × String)} (hg : g.Ready limits [])
    : Ty.UnionRules strict fun s t => ((Ty.check classCheck strict s t).run g).1 := by
  have hwild : ∀ {s t : Ty Class}, s.isWild = true →
      ((Ty.check classCheck strict s t).run g).1 = (s == t || t.isTop || !strict) := by
    intro s t hs
    have hcomm : (t == s) = (s == t) := by
      cases s <;> cases hs <;> cases t <;> rfl
    rw [← hcomm]
    cases s <;> cases hs <;> rfl
  have hsource : ∀ {sources : List (Ty Class)} {t : Ty Class},
      ((Ty.check classCheck strict (.union sources) t).run g).1
        = (.union sources == t || t.isTop ||
            sources.all fun s => ((Ty.check classCheck strict s t).run g).1) := by
    intro sources t
    rw [← allM_run hg hg (h · t), ← Ty.checkAll_eq]
    unfold Ty.check
    cases Ty.union sources == t || t.isTop <;> rfl
  have hother : ∀ {s t : Ty Class}, s.isWild = false → s.isUnion = false →
      (s == t || t.isTop) = true → ((Ty.check classCheck strict s t).run g).1 = true := by
    intro s t hs hs' hst
    rcases check_eq_acceptedBy classCheck strict hs hs' with ⟨accepts, heq⟩
    rw [heq]
    rcases Bool.or_eq_true_iff.1 hst with hst | hst
    . rw [acceptedBy_eq_of_same accepts hst]
      rfl
    . rw [acceptedBy_eq_of_top s accepts hst]
      rfl
  have hbase : ∀ {s t : Ty Class}, (s == t || t.isTop) = true →
      ((Ty.check classCheck strict s t).run g).1 = true := by
    intro s t hst
    cases hs : s.isWild with
    | true => rw [hwild hs, hst, Bool.true_or]
    | false =>
      cases s with
      | union sources => rw [hsource, hst, Bool.true_or]
      | any | unknown | nil => cases hs
      | primitive p | cls c | array element | generic base params => exact hother rfl rfl hst
  constructor
  . intro s t hst
    exact hbase (by rw [hst, Bool.true_or])
  . intro s t ht
    exact hbase (by rw [ht, Bool.or_true])
  . exact hwild
  . exact hsource
  . intro s members hs hs'
    rcases check_eq_acceptedBy classCheck strict hs hs' with ⟨accepts, heq⟩
    have hne : (s == .union members) = false := by
      cases s <;> cases hs' <;> rfl
    have hagree : ∀ t, Agree limits [] (Ty.acceptedBy s accepts t) (Ty.acceptedBy s accepts t) := by
      intro t
      rw [← heq]
      exact h s t
    simp only [heq]
    rw [← anyM_run hg hg hagree, ← Ty.acceptedByAny_eq]
    unfold Ty.acceptedBy
    rw [hne]
    rfl

theorem isSubtype_unionRules (ctx : Context) (strict : Bool) {limits : Limits}
    {g : Guard (String × String)} (hg : g.Ready limits [])
    : Ty.UnionRules strict fun s t => ((isSubtype ctx s t strict).run g).1 := by
  have hrules : ∀ room, Ty.UnionRules strict fun s t =>
      (((checker ctx).subtype strict room s t).run g).1 := by
    intro room
    apply check_unionRules _ hg
    intro s t
    exact subtype_agree strict (ctx.paired_alike s) (ctx.paired_alike t) room
  have hrun : ∀ s t, ((isSubtype ctx s t strict).run g).1
      = (((checker ctx).subtype strict (g.room + 1) s t).run g).1 := by
    intro s t
    unfold isSubtype Checker.isSubtype
    rw [run_bind, bound_run]
  simp only [hrun]
  exact hrules (g.room + 1)

end Guarded

theorem Ty.UnionRules.erase {strict : Bool} {V : Ty Class → Ty Class → Bool}
    (h : UnionRules strict V)
    : UnionRules strict fun s t => V s.erase t.erase := by
  have hbeq := Ty.beq_map Class.erase_beq
  constructor
  . intro s t hst
    exact h.same (by rwa [Ty.erase, Ty.erase, hbeq])
  . intro s t ht
    exact h.top (by rwa [Ty.erase, isTop_map])
  . intro s t hs
    rw [h.wild (by rwa [Ty.erase, isWild_map]), Ty.erase, Ty.erase, hbeq, isTop_map]
  . intro sources t
    have hunion : (Ty.union sources).erase = .union (sources.map Ty.erase) := by
      simp only [Ty.erase, Ty.map, Ty.mapList_eq]
      rfl
    rw [hunion, h.source, ← hunion, Ty.erase, Ty.erase, hbeq, isTop_map]
    simp [Function.comp_def]
  . intro s members hs hs'
    have hunion : (Ty.union members).erase = .union (members.map Ty.erase) := by
      simp only [Ty.erase, Ty.map, Ty.mapList_eq]
      rfl
    rw [hunion, h.target (by rwa [Ty.erase, isWild_map]) (by rwa [Ty.erase, isUnion_map])]
    simp [Function.comp_def]

/--
Whether the subtype check accepts a pair of types in a state.
-/
def QueryState.accepts (s : QueryState) (ctx : Context) (strict : Bool)
    (source target : Ty Class) : Bool :=
  ((ctx.isSubtype source target strict).run s).1

theorem Session.accepts_eq {ctx : Context} [ctx.Quiet] {limits : Limits} {history : List Request}
    {pool : List Class} {s : QueryState} (h : Session ctx limits history pool s) (strict : Bool)
    {source target : Ty Class} (hsource : source.All (· ∈ pool)) (htarget : target.All (· ∈ pool))
    : s.accepts ctx strict source target
        =
      ((Guarded.isSubtype ctx source.erase target.erase strict).run s.guard).1 := by
  rcases h.invariant with ⟨w, hs, hpool, _⟩
  rcases Context.isSubtype_mirrors (hsource.imp hpool) (htarget.imp hpool) strict w s
    (List.prefix_refl w) hs with ⟨_, _, _, _, hanswer⟩
  exact hanswer

theorem accepts_union_laws (index : Index) (options : Options) (scope : Scope) (limits : Limits)
    {history : List Request} {pool : List Class} {s : QueryState}
    (h : Session { index, options, scope } limits history pool s) (strict : Bool)
    {source target : Ty Class} {sources members : List (Ty Class)}
    (hsource : source.All (· ∈ pool)) (htarget : target.All (· ∈ pool))
    (hsources : ∀ a ∈ sources, a.All (· ∈ pool)) (hmembers : ∀ m ∈ members, m.All (· ∈ pool))
    : (∀ m ∈ members, s.accepts { index, options, scope } strict source m = true →
        (s.accepts { index, options, scope } strict source (.union members) = true ↔
          ¬(strict = true ∧ Ty.Blocked (.union members) source))) ∧
      ((s.accepts { index, options, scope } strict (.union sources) target = true ↔
          ∀ a ∈ sources, s.accepts { index, options, scope } strict a target = true) ↔
        ¬(strict = true ∧ (.union sources == target) = true ∧
          ∃ a ∈ sources, Ty.Blocked target a)) := by
  rcases h.invariant with ⟨_, _, _, hready⟩
  have hrules := (Guarded.isSubtype_unionRules { index, options, scope } strict hready).erase
  constructor
  . intro m hm hmember
    rw [h.accepts_eq strict hsource (hmembers m hm)] at hmember
    rw [h.accepts_eq strict hsource (Ty.all_union.2 hmembers)]
    exact hrules.accepts_union_iff hm hmember
  . have heach : (∀ a ∈ sources, s.accepts { index, options, scope } strict a target = true) ↔
        ∀ a ∈ sources, ((Guarded.isSubtype { index, options, scope } a.erase target.erase
          strict).run s.guard).1 = true := by
      constructor
      . intro hall a ha
        rw [← h.accepts_eq strict (hsources a ha) htarget]
        exact hall a ha
      . intro hall a ha
        rw [h.accepts_eq strict (hsources a ha) htarget]
        exact hall a ha
    rw [h.accepts_eq strict (Ty.all_union.2 hsources) htarget, heach]
    exact hrules.union_accepted_iff

theorem accepts_union_laws_shapes
    : let ctx : Context := { index := .shapes }
      let dot : Ty Class := .cls (.referenceAt "Dot" 0)
      let point : Ty Class := .cls (.referenceAt "Point" 1)
      let made := (do
        discard ((Maker.reference "Dot").run ctx)
        (Maker.reference "Point").run ctx : Query (Ty Class)).run (.fresh .standard)
      made.2.accepts ctx true dot point = true ∧
      made.2.accepts ctx true dot (.union [.nil, point]) = true ∧
      (made.2.accepts ctx true (.union [.nil, dot]) point = true ↔
        ∀ a ∈ [.nil, dot], made.2.accepts ctx true a point = true) := by
  intro ctx dot point made
  let pool : List Class := [.referenceAt "Dot" 0, .referenceAt "Point" 1]
  have hmade : Session ctx .standard [] pool made.2 :=
    .make (.reference "Point") (.make (.reference "Dot") .start)
  have hdot : dot.All (· ∈ pool) := by simp [dot, pool]
  have hpoint : point.All (· ∈ pool) := by simp [point, pool]
  have hnil : Ty.nil.All (· ∈ pool) := nofun
  have hsources : ∀ a ∈ [.nil, dot], a.All (· ∈ pool) := by simp [hnil, hdot]
  have hmembers : ∀ m ∈ [.nil, point], m.All (· ∈ pool) := by simp [hnil, hpoint]
  have haccepts : made.2.accepts ctx true dot point = true := by decide +kernel
  rcases accepts_union_laws .shapes {} .project .standard hmade true hdot hpoint hsources
    hmembers with ⟨htarget, hsource⟩
  refine ⟨haccepts, (htarget point (by simp) haccepts).2 ?_, hsource.2 ?_⟩
  . rintro ⟨_, hblocked⟩
    change Ty.Blocked _ (.cls (.referenceAt "Dot" 0)) at hblocked
    cases hblocked with
    | wild h => cases h
  . rintro ⟨_, hsame, _⟩
    cases hsame

theorem nil_refused_by_union
    : let ctx : Context := { index := {} }
      let s := QueryState.fresh .standard
      let target : Ty Class := .union [.nil, .primitive .string]
      s.accepts ctx true .nil .nil = true ∧ s.accepts ctx true .nil target = false ∧
      s.accepts ctx true target target = true ∧
      ((ctx.isSubtype .nil target true).run s).2.guard.exceeded = false := by
  decide +kernel

end LuaClasses
