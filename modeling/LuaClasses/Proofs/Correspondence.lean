import LuaClasses.Proofs.Types

/-!
This module contains the comparison of subtype checks that are built alike from different
primitives. Checks are related at a stage, which may change on the way, and the relation is given by
what it says of the primitives. Where these correspond, so do the checks.
-/

namespace LuaClasses

namespace Ty

section Lists

variable {m : Type → Type} [Monad m]

theorem acceptedByAny_eq (source : Ty Class) (accepts : Ty Class → m Bool) (ts : List (Ty Class))
    : acceptedByAny source accepts ts = ts.anyM (acceptedBy source accepts) := by
  induction ts with
  | nil => rfl
  | cons t rest ih => rw [acceptedByAny, List.anyM_cons, ih]

theorem checkAll_eq (classCheck : Class → Ty Class → m Bool) (strict : Bool)
    (sources : List (Ty Class)) (target : Ty Class)
    : checkAll classCheck strict sources target
        =
      sources.allM (check classCheck strict · target) := by
  induction sources with
  | nil => rfl
  | cons s rest ih => rw [checkAll, List.allM_cons, ih]

end Lists

/--
A relation between the checks of two monads that is kept by the ways in which checks are built.
-/
structure Congruence {m n : Type → Type} [Monad m] [Monad n] (Φ : m Bool → n Bool → Prop)
    : Prop where
  pure : ∀ b, Φ (pure b) (pure b)
  ite : ∀ {p p' q q' r r'}, Φ p p' → Φ q q' → Φ r r' →
    Φ (p >>= fun b => if b then q else r) (p' >>= fun b => if b then q' else r')

section Congruence

variable {m n : Type → Type} [Monad m] [Monad n] {Φ : m Bool → n Bool → Prop}
  (hΦ : Congruence Φ)

theorem Congruence.of_bind (hpure : ∀ b, Φ (Pure.pure b) (Pure.pure b))
    (hbind : ∀ {p p'} {f : Bool → m Bool} {f' : Bool → n Bool}, Φ p p' → (∀ b, Φ (f b) (f' b)) →
      Φ (p >>= f) (p' >>= f'))
    : Congruence Φ where
  pure := hpure
  ite := by
    intro p p' q q' r r' hp hq hr
    apply hbind hp
    intro b
    cases b with
    | true => exact hq
    | false => exact hr

include hΦ in
theorem Congruence.anyM {p : α → m Bool} {q : β → n Bool} {f : ι → α} {g : ι → β} {xs : List ι}
    (h : ∀ x ∈ xs, Φ (p (f x)) (q (g x)))
    : Φ ((xs.map f).anyM p) ((xs.map g).anyM q) := by
  induction xs with
  | nil => exact hΦ.pure false
  | cons x rest ih =>
    rw [List.map_cons, List.map_cons, List.anyM_cons, List.anyM_cons]
    apply hΦ.ite
    . exact h x List.mem_cons_self
    . exact hΦ.pure true
    . exact ih fun y hy => h y (List.mem_cons_of_mem x hy)

include hΦ in
theorem Congruence.allM {p : α → m Bool} {q : β → n Bool} {f : ι → α} {g : ι → β} {xs : List ι}
    (h : ∀ x ∈ xs, Φ (p (f x)) (q (g x)))
    : Φ ((xs.map f).allM p) ((xs.map g).allM q) := by
  induction xs with
  | nil => exact hΦ.pure true
  | cons x rest ih =>
    rw [List.map_cons, List.map_cons, List.allM_cons, List.allM_cons]
    apply hΦ.ite
    . exact h x List.mem_cons_self
    . exact ih fun y hy => h y (List.mem_cons_of_mem x hy)
    . exact hΦ.pure false

variable {R : Class → Class → Prop} (hR : ∀ c d, R c d → c.Similar d)

include hR in
theorem Paired.beq_eq {s s' t t' : Ty Class} (hs : Paired R s s') (ht : Paired R t t')
    : (s == t) = (s' == t') := by
  rcases hs with ⟨u, hu, rfl, rfl⟩
  rcases ht with ⟨v, hv, rfl, rfl⟩
  exact beq_map_congr (fun p q hp hq => (hR _ _ hp).beq_eq (hR _ _ hq)) hu hv

include hΦ hR in
theorem acceptedBy_congr {source source' : Ty Class} {accepts : Ty Class → m Bool}
    {accepts' : Ty Class → n Bool} (hsource : Paired R source source')
    (h : ∀ {u : Ty (Class × Class)}, u.All (fun p => R p.1 p.2) →
      Φ (accepts (u.map Prod.fst)) (accepts' (u.map Prod.snd)))
    {target : Ty (Class × Class)} (htarget : target.All fun p => R p.1 p.2)
    : Φ (acceptedBy source accepts (target.map Prod.fst))
        (acceptedBy source' accepts' (target.map Prod.snd)) := by
  have hbeq : (source == target.map Prod.fst) = (source' == target.map Prod.snd) :=
    hsource.beq_eq hR ⟨target, htarget, rfl, rfl⟩
  induction target with
  | any | unknown =>
    simp only [acceptedBy, map]
    split <;> split <;> exact hΦ.pure true
  | union members ih =>
    unfold acceptedBy
    rw [hbeq]
    split
    . exact hΦ.pure true
    . simp only [map, mapList_eq, acceptedByAny_eq]
      apply hΦ.anyM
      intro t ht
      have htarget := all_union.1 htarget t ht
      exact ih t ht htarget (hsource.beq_eq hR ⟨t, htarget, rfl, rfl⟩)
  | nil | primitive p | cls c | array element | generic base params =>
    unfold acceptedBy
    rw [hbeq]
    split
    . exact hΦ.pure true
    . exact h htarget

variable {classCheck : Class → Ty Class → m Bool} {classCheck' : Class → Ty Class → n Bool}
  (hcls : ∀ {c d s t}, R c d → Paired R s t → Φ (classCheck c s) (classCheck' d t))

include hΦ in
theorem checkEach_congr {strict : Bool} {sources targets : List (Ty (Class × Class))}
    (ih : ∀ s ∈ sources, ∀ {t : Ty (Class × Class)}, s.All (fun p => R p.1 p.2) →
      t.All (fun p => R p.1 p.2) →
      Φ (check classCheck strict (s.map Prod.fst) (t.map Prod.fst))
        (check classCheck' strict (s.map Prod.snd) (t.map Prod.snd)))
    (hsources : ∀ s ∈ sources, s.All fun p => R p.1 p.2)
    (htargets : ∀ t ∈ targets, t.All fun p => R p.1 p.2)
    : Φ (checkEach classCheck strict (sources.map (map Prod.fst)) (targets.map (map Prod.fst)))
        (checkEach classCheck' strict (sources.map (map Prod.snd))
          (targets.map (map Prod.snd))) := by
  induction sources generalizing targets with
  | nil => exact hΦ.pure true
  | cons s rest ihrest =>
    cases targets with
    | nil => exact hΦ.pure true
    | cons t targets =>
      rcases List.forall_mem_cons.1 hsources with ⟨hs, hrest⟩
      rcases List.forall_mem_cons.1 htargets with ⟨ht, htargets⟩
      apply hΦ.ite
      . exact ih s List.mem_cons_self hs ht
      . exact ihrest (fun u hu => ih u (List.mem_cons_of_mem s hu)) hrest htargets
      . exact hΦ.pure false

include hΦ hR hcls in
theorem check_congr (strict : Bool) {source source' target target' : Ty Class}
    (hsource : Paired R source source') (htarget : Paired R target target')
    : Φ (check classCheck strict source target) (check classCheck' strict source' target') := by
  rcases hsource with ⟨u, hu, rfl, rfl⟩
  rcases htarget with ⟨v, hv, rfl, rfl⟩
  have hbeq : ∀ {u v : Ty (Class × Class)}, u.All (fun p => R p.1 p.2) →
      v.All (fun p => R p.1 p.2) →
      (u.map Prod.fst == v.map Prod.fst) = (u.map Prod.snd == v.map Prod.snd) :=
    fun hu hv => Paired.beq_eq hR ⟨_, hu, rfl, rfl⟩ ⟨_, hv, rfl, rfl⟩
  induction u generalizing v with
  | any | unknown | nil =>
    have hsame := hbeq hv hu
    simp only [map] at hsame
    simp only [map, check, hsame, isTop_map]
    apply hΦ.pure
  | primitive p =>
    apply acceptedBy_congr hΦ hR ⟨.primitive p, hu, rfl, rfl⟩ _ hv
    intro t ht
    cases t <;> apply hΦ.pure
  | cls p =>
    apply acceptedBy_congr hΦ hR ⟨.cls p, hu, rfl, rfl⟩ _ hv
    intro t ht
    exact hcls (hu p (List.mem_singleton.2 rfl)) ⟨t, ht, rfl, rfl⟩
  | array element ih =>
    apply acceptedBy_congr hΦ hR ⟨.array element, hu, rfl, rfl⟩ _ hv
    intro t ht
    cases t with
    | array element' => exact ih (all_array.1 hu) element' (all_array.1 ht)
    | primitive p => cases p <;> apply hΦ.pure
    | _ => apply hΦ.pure
  | generic base params hbase hparams =>
    rcases all_generic.1 hu with ⟨hb, hps⟩
    have hsource : Paired R (.generic (base.map Prod.fst) (params.map (map Prod.fst)))
        (.generic (base.map Prod.snd) (params.map (map Prod.snd))) :=
      ⟨.generic base params, hu, by simp only [map, mapList_eq], by simp only [map, mapList_eq]⟩
    simp only [map, mapList_eq, check]
    apply acceptedBy_congr hΦ hR hsource _ hv
    intro t ht
    cases t with
    | generic base' params' =>
      rcases all_generic.1 ht with ⟨hb', hps'⟩
      simp only [map, mapList_eq, hbeq hb hb', List.length_map]
      split
      . exact checkEach_congr hΦ (fun s hs t hss htt => hparams s hs hss t htt) hps hps'
      . apply hΦ.pure
    | _ => exact hbase hb _ ht
  | union members ih =>
    have hsame := hbeq hu hv
    simp only [map, mapList_eq] at hsame
    simp only [map, check, mapList_eq, hsame, isTop_map, checkAll_eq]
    split
    . apply hΦ.pure
    . apply hΦ.allM
      intro s hs
      exact ih s hs (all_union.1 hu s hs) v hv

end Congruence

end Ty

theorem Checker.checkClassAny_eq {m : Type → Type} [Monad m] (k : Checker m)
    (conforms : Class → Class → m Bool) (c : Class) (ts : List (Ty Class))
    : k.checkClassAny conforms c ts = ts.anyM (k.checkClass conforms c) := by
  induction ts with
  | nil => rfl
  | cons t rest ih => rw [checkClassAny, List.anyM_cons, ih]

/--
A relation between the programs of two monads. Programs are related at a stage and at all later
ones, and their answers are related at the stage that the programs come to.
-/
structure StagedRelation (m n : Type → Type) [Monad m] [Monad n] where
  Stage : Type
  Later : Stage → Stage → Prop
  Holds : ∀ {α β : Type}, Stage → m α → n β → (Stage → α → β → Prop) → Prop
  trans : ∀ {i j j'}, Later i j → Later j j' → Later i j'
  mono : ∀ {α β : Type} {i j} {x : m α} {y : n β} {R}, Holds i x y R → Later i j → Holds j x y R
  pure : ∀ {α β : Type} {i} {a : α} {b : β} {R : Stage → α → β → Prop},
    (∀ j, Later i j → R j a b) → Holds i (Pure.pure a) (Pure.pure b) R
  bind : ∀ {α β γ δ : Type} {i} {x : m α} {y : n β} {f : α → m γ} {g : β → n δ} {R S},
    Holds i x y R → (∀ j a b, Later i j → R j a b → Holds j (f a) (g b) S) →
      Holds i (x >>= f) (y >>= g) S

namespace StagedRelation

variable {m n : Type → Type} [Monad m] [Monad n] (L : StagedRelation m n)

/--
Programs that come back to the stage where they start.
-/
def fixed (Stage : Type)
    (Holds : ∀ {α β : Type}, Stage → m α → n β → (α → β → Prop) → Prop)
    (pure : ∀ {α β : Type} {i} {a : α} {b : β} {R : α → β → Prop}, R a b →
      Holds i (Pure.pure a) (Pure.pure b) R)
    (bind : ∀ {α β γ δ : Type} {i} {x : m α} {y : n β} {f : α → m γ} {g : β → n δ} {R S},
      Holds i x y R → (∀ a b, R a b → Holds i (f a) (g b) S) → Holds i (x >>= f) (y >>= g) S)
    : StagedRelation m n where
  Stage := Stage
  Later := Eq
  Holds i x y R := Holds i x y (R i)
  trans := Eq.trans
  mono h hij := hij ▸ h
  pure h := pure (h _ rfl)
  bind hx hf := bind hx fun a b => hf _ a b rfl

/--
The programs give the same answer.
-/
def Same (i : L.Stage) (x : m α) (y : n α) : Prop :=
  L.Holds i x y fun _ a b => a = b

namespace Same

variable {L} {i : L.Stage}

theorem pure (a : α) : L.Same i (Pure.pure a) (Pure.pure a) :=
  L.pure fun _ _ => rfl

theorem bind {x : m α} {y : n α} {f : α → m β} {g : α → n β} (hx : L.Same i x y)
    (hf : ∀ a, L.Same i (f a) (g a))
    : L.Same i (x >>= f) (y >>= g) := by
  apply L.bind hx
  rintro j a _ hj rfl
  exact L.mono (hf a) hj

theorem congruence : Ty.Congruence (L.Same i) :=
  .of_bind pure bind

/--
Two calls to the guard that agree, with a comparison between them, are a step that agrees.
-/
theorem within {k : Checker m} {l : Checker n} {c c' d d' : Class} {x : m Bool} {y : n Bool}
    (hc : c.name = c'.name) (hd : d.name = d'.name)
    (henter : ∀ key, L.Same i (k.enter key) (l.enter key))
    (hleave : ∀ key, L.Same i (k.leave key) (l.leave key))
    (hnote : ∀ e, L.Same i (k.note e) (l.note e)) (hx : L.Same i x y)
    : L.Same i (k.within c d x) (l.within c' d' y) := by
  unfold Checker.within
  rw [hc, hd]
  apply bind (henter _)
  intro admission
  cases admission with
  | entered => exact bind hx fun answer => bind (hleave _) fun _ => pure answer
  | cycle => exact pure true
  | depthExceeded | iterationExceeded => exact bind (hnote _) fun _ => pure false

end Same

end StagedRelation

/--
Two ways to build a subtype check of which each step of one corresponds to the same step of the
other. A comparison takes place at a stage of its own, inside the one where it starts, and leaves
less room for others.
-/
structure Checker.Correspondence {m n : Type → Type} [Monad m] [Monad n] (k : Checker m)
    (l : Checker n) extends StagedRelation m n where
  Sim : Stage → Class → Class → Prop
  Inside : Stage → String × String → Stage → Prop
  /-- The bounds on the nesting of comparisons go together. -/
  Fits : Stage → Nat → Nat → Prop
  similar : ∀ {i c d}, Sim i c d → c.Similar d
  sim_later : ∀ {i j c d}, Sim i c d → Later i j → Sim j c d
  sim_inside : ∀ {i j key c d}, Sim i c d → Inside i key j → Sim j c d
  fits_later : ∀ {i j a b}, Fits i a b → Later i j → Fits j a b
  fits_inside : ∀ {i j key a b}, Fits i (a + 1) (b + 1) → Inside i key j → Fits j a b
  fits_zero : ∀ {i a b}, Fits i a b → (a = 0 ↔ b = 0)
  settle : ∀ {i c d}, Sim i c d → toStagedRelation.Same i (k.settle c) (l.settle d)
  hasAncestor : ∀ {i c c' d d'}, Sim i c c' → Sim i d d' →
    toStagedRelation.Same i (k.hasAncestor c d) (l.hasAncestor c' d')
  isInterface : ∀ {i c d}, Sim i c d → toStagedRelation.Same i (k.isInterface c) (l.isInterface d)
  ownMembers : ∀ {i c d}, Sim i c d → toStagedRelation.Same i (k.ownMembers c) (l.ownMembers d)
  findMember : ∀ {i c d} (name : String), Sim i c d →
    toStagedRelation.Same i (k.findMember c name) (l.findMember d name)
  infer : ∀ {i} (member : Member),
    Holds i (k.infer member) (l.infer member) fun j => Ty.Paired (Sim j)
  beyond : ∀ {i}, Fits i 0 0 → toStagedRelation.Same i k.beyond l.beyond
  note : ∀ {i} (e : Event), toStagedRelation.Same i (k.note e) (l.note e)
  within : ∀ {i c c' d d' x y}, Sim i c c' → Sim i d d' →
    (∀ j, Inside i (c.name, d.name) j → toStagedRelation.Same j x y) →
      toStagedRelation.Same i (k.within c d x) (l.within c' d' y)

namespace Checker.Correspondence

open StagedRelation (Same)

variable {m n : Type → Type} [Monad m] [Monad n] {k : Checker m} {l : Checker n}
  (C : Correspondence k l)

section Class

variable {i : C.Stage} {conforms : Class → Class → m Bool} {conforms' : Class → Class → n Bool}
  (hconforms : ∀ {c c' d d'}, C.Sim i c c' → C.Sim i d d' →
    C.Same i (conforms c d) (conforms' c' d'))
  {c c' : Class} (hc : C.Sim i c c')

include hconforms hc in
theorem isRelated {d d' : Class} (hd : C.Sim i d d')
    : C.Same i (k.isRelated conforms c d) (l.isRelated conforms' c' d') := by
  apply Same.bind (C.hasAncestor hc hd)
  intro isAncestor
  cases isAncestor with
  | true => exact Same.pure true
  | false =>
    apply Same.bind (C.isInterface hd)
    intro isInterface
    cases isInterface with
    | true => exact hconforms hc hd
    | false => exact Same.pure false

include hconforms hc in
theorem checkClass {t t' : Ty Class} (ht : Ty.Paired (C.Sim i) t t')
    : C.Same i (k.checkClass conforms c t) (l.checkClass conforms' c' t') := by
  have hsettle : ∀ b : Bool, C.Same i (do k.settle c; return b) (do l.settle c'; return b) :=
    fun b => Same.bind (C.settle hc) fun _ => Same.pure b
  have hempty := (C.similar hc).isEmptyTable_eq
  rcases ht with ⟨u, hu, rfl, rfl⟩
  induction u with
  | any | unknown => exact Same.pure true
  | cls p =>
    have hp : C.Sim i p.1 p.2 := hu p (List.mem_singleton.2 rfl)
    simp only [Ty.map, Checker.checkClass]
    rw [(C.similar hp).beq_eq (C.similar hc)]
    split
    . exact Same.pure true
    . exact Same.bind (C.settle hc) fun _ => C.isRelated hconforms hc hp
  | union members ih =>
    have hmembers : C.Same i ((members.map (Ty.map Prod.fst)).anyM (k.checkClass conforms c))
        ((members.map (Ty.map Prod.snd)).anyM (l.checkClass conforms' c')) := by
      apply Same.congruence.anyM
      intro t ht
      exact ih t ht (Ty.all_union.1 hu t ht)
    simp only [Ty.map, Ty.mapList_eq, Checker.checkClass, checkClassAny_eq]
    apply Same.bind hmembers
    intro found
    cases found with
    | true => exact Same.pure true
    | false => exact hsettle false
  | nil => exact hsettle false
  | array element =>
    simp only [Ty.map, Checker.checkClass, hempty]
    exact hsettle _
  | primitive p =>
    simp only [Ty.map, Checker.checkClass]
    split
    . exact Same.pure true
    . exact hsettle _
  | generic base params =>
    have htable : ∀ f : Class × Class → Class,
        (Ty.generic (base.map f) (params.map (Ty.map f))).isTable = base.isTable :=
      fun f => Ty.isTable_map f base
    simp only [Ty.map, Ty.mapList_eq, Checker.checkClass, htable]
    split
    . exact Same.pure true
    . exact hsettle _

include hconforms in
theorem check (strict : Bool) {s s' t t' : Ty Class} (hs : Ty.Paired (C.Sim i) s s')
    (ht : Ty.Paired (C.Sim i) t t')
    : C.Same i (Ty.check (k.checkClass conforms) strict s t)
        (Ty.check (l.checkClass conforms') strict s' t') :=
  Ty.check_congr Same.congruence (fun _ _ => C.similar)
    (fun hc ht => C.checkClass hconforms hc ht) strict hs ht

end Class

section Members

variable {i : C.Stage} {subtype : Ty Class → Ty Class → m Bool}
  {subtype' : Ty Class → Ty Class → n Bool}
  (hsubtype : ∀ {j s s' t t'}, C.Later i j → Ty.Paired (C.Sim j) s s' → Ty.Paired (C.Sim j) t t' →
    C.Same j (subtype s t) (subtype' s' t'))
  {c c' d d' : Class} (hc : C.Sim i c c') (hd : C.Sim i d d')

include hsubtype hc hd in
theorem hasMember (required : Member)
    : C.Same i (k.hasMember subtype c d required) (l.hasMember subtype' c' d' required) := by
  have hnote : ∀ {j} (e : Event),
      C.Same j (do k.note e; return false) (do l.note e; return false) :=
    fun e => Same.bind (C.note e) fun _ => Same.pure false
  unfold Checker.hasMember
  rw [(C.similar hc).name_eq, (C.similar hd).name_eq]
  cases required.name with
  | none => exact hnote _
  | some name =>
    apply Same.bind (C.findMember name hc)
    intro found
    cases found with
    | none => exact hnote _
    | some provided =>
      -- The types may be known at a later stage only, and the comparison is made there.
      apply C.bind (C.infer provided)
      intro j s s' hj hs
      apply C.bind (C.infer required)
      intro j' t t' hj' ht
      have hs : Ty.Paired (C.Sim j') s s' := hs.imp fun _ _ h => C.sim_later h hj'
      have htext : ∀ {s s' : Ty Class}, Ty.Paired (C.Sim j') s s' → s.text = s'.text :=
        fun h => h.text_eq fun _ _ h => (C.similar h).displayName_eq
      apply Same.bind (hsubtype (C.trans hj hj') hs ht)
      intro accepted
      cases accepted with
      | true => exact Same.pure true
      | false =>
        rw [htext hs, htext ht]
        exact hnote _

include hsubtype hc hd in
theorem hasMembers (required : List Member)
    : C.Same i (k.hasMembers subtype c d required) (l.hasMembers subtype' c' d' required) := by
  induction required with
  | nil => exact Same.pure true
  | cons member rest ih =>
    apply Same.bind (C.hasMember hsubtype hc hd member)
    intro first
    exact Same.bind ih fun others => Same.pure _

end Members

theorem conforms (strict : Bool) {i : C.Stage} {a b : Nat} (hfits : C.Fits i a b)
    {c c' d d' : Class} (hc : C.Sim i c c') (hd : C.Sim i d d')
    : C.Same i (k.conforms strict a c d) (l.conforms strict b c' d') := by
  -- Inner comparisons are made at other stages, so the induction is over all of them.
  induction a generalizing i b c c' d d' with
  | zero =>
    cases (C.fits_zero hfits).1 rfl
    exact C.beyond hfits
  | succ a ih =>
    cases b with
    | zero => cases (C.fits_zero hfits).2 rfl
    | succ b =>
      apply C.within hc hd
      intro j hj
      have hc := C.sim_inside hc hj
      have hd := C.sim_inside hd hj
      apply Same.bind (C.ownMembers hd)
      intro required
      apply C.hasMembers _ hc hd
      intro j' s s' t t' hj' hs ht
      exact C.check (ih (C.fits_later (C.fits_inside hfits hj) hj')) strict hs ht

section Entry

variable {i : C.Stage} (hbound : C.Holds i k.bound l.bound C.Fits) (strict : Bool)

theorem subtype {a b : Nat} (hfits : C.Fits i a b) {s s' t t' : Ty Class}
    (hs : Ty.Paired (C.Sim i) s s') (ht : Ty.Paired (C.Sim i) t t')
    : C.Same i (k.subtype strict a s t) (l.subtype strict b s' t') :=
  C.check (C.conforms strict hfits) strict hs ht

include hbound in
theorem isSubtype {s s' t t' : Ty Class} (hs : Ty.Paired (C.Sim i) s s')
    (ht : Ty.Paired (C.Sim i) t t')
    : C.Same i (k.isSubtype s t strict) (l.isSubtype s' t' strict) := by
  apply C.bind hbound
  intro j a b hj hfits
  exact C.subtype strict hfits (hs.imp fun _ _ h => C.sim_later h hj)
    (ht.imp fun _ _ h => C.sim_later h hj)

include hbound in
theorem isSubclass {c c' : Class} (hc : C.Sim i c c') {t t' : Ty Class}
    (ht : Ty.Paired (C.Sim i) t t')
    : C.Same i (k.isSubclass c t strict) (l.isSubclass c' t' strict) := by
  apply C.bind hbound
  intro j a b hj hfits
  exact C.checkClass (C.conforms strict hfits) (C.sim_later hc hj)
    (ht.imp fun _ _ h => C.sim_later h hj)

end Entry

end Checker.Correspondence

end LuaClasses
