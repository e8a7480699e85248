import LuaClasses.Proofs.Relation
import LuaClasses.Proofs.Simulation

/-!
This module contains the proof that the subtype check decides the subtype relation. Whatever the
limits of the guard are, types that pass the check are related. Related types pass it unless a limit
was hit.
-/

namespace LuaClasses

/--
Whether nothing but its name is known of a class until the index is asked.
-/
def Class.IsReference (c : Class) : Prop :=
  c = .reference c.name

theorem Ty.all_lower (e : TypeExpr) : (Ty.lower e).All Class.IsReference := by
  unfold lower
  generalize ofExpr e = t
  induction t with
  | unknown | any | nil | primitive p => simp [All, map, classes]
  | cls name => exact all_cls.2 rfl
  | array element ih => exact all_array.2 ih
  | generic base params hbase hparams => simpa [map] using ⟨hbase, hparams⟩
  | union members ih => simpa [map] using ih

namespace Context

variable {ctx : Context} {strict : Bool} {active : List (String × String)}

/--
The classes and interfaces that are being compared. Nothing but their names is known of a comparison
under way, so it stands for that of the classes that the names refer to.
-/
inductive Assumed (ctx : Context) (active : List (String × String)) :
    Ty Class → Ty Class → Prop where
  | intro {name name' : String} : (name, name') ∈ active →
      (ctx.knownHeader (.reference name')).isInterface = true →
      Assumed ctx active (.cls (.reference name)) (.cls (.reference name'))

theorem Assumed.mem {c d : Class} (h : Assumed ctx active (.cls c) (.cls d))
    : (c.name, d.name) ∈ active := by
  cases h with
  | intro h _ => exact h

theorem Assumed.isInterface {c d : Class} (h : Assumed ctx active (.cls c) (.cls d))
    : (ctx.knownHeader d).isInterface = true := by
  cases h with
  | intro _ h => exact h

/--
Whether types are related, given that the comparisons under way succeed.
-/
def RelatedAmid (ctx : Context) (strict : Bool) (active : List (String × String))
    (s t : Ty Class) : Prop :=
  ctx.RelatedUpTo strict (Assumed ctx active) s t ∨ Assumed ctx active s t

theorem RelatedAmid.step {s t : Ty Class} (h : ctx.Step strict (ctx.RelatedAmid strict active) s t)
    : ctx.RelatedAmid strict active s t :=
  .inl (RelatedUpTo.step h)

theorem RelatedAmid.related {s t : Ty Class} (h : ctx.RelatedAmid strict [] s t)
    : ctx.Related strict s t := by
  have hnone : ∀ s t, Assumed ctx [] s t → False := by
    intro s t h
    cases h with
    | intro h _ => cases h
  cases h with
  | inl h => exact (h.mono hnone).related
  | inr h => exact (hnone s t h).elim

theorem RelatedAmid.of_provides {c d : Class} (hc : c.IsReference) (hd : d.IsReference)
    (hinterface : (ctx.knownHeader d).isInterface = true)
    (h : ctx.Provides (ctx.RelatedAmid strict ((c.name, d.name) :: active)) c d)
    : ctx.RelatedAmid strict active (.cls c) (.cls d) := by
  -- The pair is the only one that its own comparison assumes and those around it do not.
  let X : Ty Class → Ty Class → Prop := fun s t => s = .cls c ∧ t = .cls d
  have hassumed : ∀ s t, Assumed ctx ((c.name, d.name) :: active) s t →
      X s t ∨ Assumed ctx active s t := by
    intro s t hst
    rcases hst with ⟨hmem, hinterface'⟩
    rcases List.mem_cons.1 hmem with hkey | hmem
    . cases hkey
      exact .inl ⟨congrArg Ty.cls hc.symm, congrArg Ty.cls hd.symm⟩
    . exact .inr (.intro hmem hinterface')
  left
  apply RelatedUpTo.accumulate (X := X) _ (.inr ⟨rfl, rfl⟩)
  rintro s t ⟨rfl, rfl⟩
  apply Step.interface hinterface
  apply h.mono
  intro s t hst
  cases hst with
  | inl h => exact .inl (h.mono hassumed)
  | inr h => exact .inr (hassumed s t h)

/--
What a step can rely on to accept a pair of classes, where `A` is what a comparison of the two comes
to.
-/
inductive ClassStep (ctx : Context) (A : Prop) (c d : Class) : Prop where
  | same : (c == d) = true → ClassStep ctx A c d
  | ancestor : (ctx.lineage c).any (· == d) = true → ClassStep ctx A c d
  | interface : (ctx.knownHeader d).isInterface = true → A → ClassStep ctx A c d

theorem Step.classStep {R : Ty Class → Ty Class → Prop} {c d : Class}
    (h : ctx.Step strict R (.cls c) (.cls d))
    : ctx.ClassStep (ctx.Provides R c d) c d := by
  cases h with
  | same h => exact .same h
  | ancestor h => exact .ancestor h
  | interface hinterface h => exact .interface hinterface h
  | top h | wild h | table h => cases h

theorem ClassStep.imp {A B : Prop} {c d : Class} (h : ctx.ClassStep A c d) (hAB : A → B)
    : ctx.ClassStep B c d := by
  cases h with
  | same h => exact .same h
  | ancestor h => exact .ancestor h
  | interface hinterface h => exact .interface hinterface (hAB h)

theorem RelatedAmid.dest {s t : Ty Class} (hclass : s.class? = none ∨ t.class? = none)
    (h : ctx.RelatedAmid strict active s t)
    : ctx.Step strict (ctx.RelatedAmid strict active) s t := by
  cases h with
  | inl h => exact h.dest
  | inr h => cases h with | intro => simp [Ty.class?] at hclass

theorem RelatedAmid.classStep {c d : Class} (h : ctx.RelatedAmid strict active (.cls c) (.cls d))
    : ctx.ClassStep
        (ctx.Provides (ctx.RelatedAmid strict active) c d ∨
          Assumed ctx active (.cls c) (.cls d)) c d := by
  cases h with
  | inl h => exact h.dest.classStep.imp .inl
  | inr h => exact .interface h.isInterface (.inr h)

end Context

namespace Guarded

/--
What a check came to, from the guard `g` on: it leaves under way what was under way, if it accepts
then `P` holds, and if `Q` holds then it accepts, unless a limit was hit.
-/
structure Verdict (limits : Limits) (active : List (String × String)) (P Q : Prop)
    (g : Guard (String × String)) (result : Bool × Guard (String × String)) : Prop where
  at_end : result.2.At limits active
  exceeded : g.exceeded = true → result.2.exceeded = true
  sound : result.1 = true → P
  complete : result.2.exceeded = false → Q → result.1 = true

/--
The check decides between `P` and the negation of `Q`.
-/
def Decides (limits : Limits) (active : List (String × String)) (p : Guarded Bool)
    (P Q : Prop) : Prop :=
  ∀ g, g.At limits active → Verdict limits active P Q g (p.run g)

namespace Decides

variable {limits : Limits} {active : List (String × String)} {p q : Guarded Bool}
  {P P' Q Q' : Prop}

theorem weaken (h : Decides limits active p P Q) (hP : P → P') (hQ : Q' → Q)
    : Decides limits active p P' Q' := by
  intro g hg
  rcases h g hg with ⟨hend, hexceeded, hsound, hcomplete⟩
  exact ⟨hend, hexceeded, fun h => hP (hsound h), fun h h' => hcomplete h (hQ h')⟩

theorem pure {b : Bool} (hP : b = true → P) (hQ : Q → b = true)
    : Decides limits active (Pure.pure b) P Q :=
  fun _ hg => ⟨hg, id, hP, fun _ => hQ⟩

theorem bind {f : Bool → Guarded Bool} {F G : Bool → Prop} (hp : Decides limits active p P Q)
    (hf : ∀ b, Decides limits active (f b) (F b) (G b))
    (hP : ∀ b, (b = true → P) → F b → P') (hQ : ∀ b, (Q → b = true) → Q' → G b)
    : Decides limits active (p >>= f) P' Q' := by
  intro g hg
  rw [run_bind]
  rcases hp g hg with ⟨hend, hexceeded, hsound, hcomplete⟩
  rcases hf (p.run g).1 _ hend with ⟨hend', hexceeded', hsound', hcomplete'⟩
  constructor
  . exact hend'
  . exact fun h => hexceeded' (hexceeded h)
  . exact fun h => hP _ hsound (hsound' h)
  . intro hlimit h
    -- A limit that the first check hits still counts as hit at the end.
    have hlimit' : (p.run g).2.exceeded = false := by
      rw [← Bool.not_eq_true]
      intro h
      rw [hexceeded' h] at hlimit
      cases hlimit
    exact hcomplete' hlimit (hQ _ (hcomplete hlimit') h)

theorem orElse (hp : Decides limits active p P Q) (hq : Decides limits active q P' Q')
    : Decides limits active (do if ← p then return true else q) (P ∨ P') (Q ∨ Q') := by
  apply hp.bind (F := fun b => b = true ∨ P') (G := fun b => b = true ∨ Q')
  . intro b
    cases b with
    | true => exact pure (fun _ => .inl rfl) (fun _ => rfl)
    | false => exact hq.weaken .inr (fun h => h.resolve_left Bool.noConfusion)
  . exact fun b hb h => h.imp_left hb
  . exact fun b hb h => h.imp_left hb

theorem andThen (hp : Decides limits active p P Q) (hq : Decides limits active q P' Q')
    : Decides limits active (do if ← p then q else return false) (P ∧ P') (Q ∧ Q') := by
  apply hp.bind (F := fun b => b = true ∧ P') (G := fun b => b = true ∧ Q')
  . intro b
    cases b with
    | true => exact hq.weaken (fun h => ⟨rfl, h⟩) (fun h => h.2)
    | false => exact pure (fun h => nomatch h) (fun h => h.1)
  . exact fun b hb h => h.imp_left hb
  . exact fun b hb h => h.imp_left hb

theorem anyM {p : α → Guarded Bool} {F G : α → Prop} {xs : List α}
    (h : ∀ x ∈ xs, Decides limits active (p x) (F x) (G x))
    : Decides limits active (xs.anyM p) (∃ x ∈ xs, F x) (∃ x ∈ xs, G x) := by
  induction xs with
  | nil => exact pure (fun h => nomatch h) (by simp)
  | cons x rest ih =>
    have hfirst := h x List.mem_cons_self
    have hrest := ih fun y hy => h y (List.mem_cons_of_mem x hy)
    rw [List.anyM_cons]
    exact (hfirst.orElse hrest).weaken (by simp) (by simp)

theorem allM {p : α → Guarded Bool} {F G : α → Prop} {xs : List α}
    (h : ∀ x ∈ xs, Decides limits active (p x) (F x) (G x))
    : Decides limits active (xs.allM p) (∀ x ∈ xs, F x) (∀ x ∈ xs, G x) := by
  induction xs with
  | nil => exact pure (fun _ => by simp) (fun _ => rfl)
  | cons x rest ih =>
    have hfirst := h x List.mem_cons_self
    have hrest := ih fun y hy => h y (List.mem_cons_of_mem x hy)
    rw [List.allM_cons]
    exact (hfirst.andThen hrest).weaken (by simp) (by simp)

theorem both (hp : Decides limits active p P Q) (hq : Decides limits active q P' Q')
    : Decides limits active (do return (← p) && (← q)) (P ∧ P') (Q ∧ Q') := by
  apply hp.bind (F := fun b => b = true ∧ P') (G := fun b => b = true ∧ Q')
  . intro b
    apply hq.bind (F := fun b' => (b && b') = true) (G := fun b' => (b && b') = true)
    . exact fun b' => pure id id
    . intro b' hb' h
      simp only [Bool.and_eq_true] at h
      exact ⟨h.1, hb' h.2⟩
    . intro b' hb' h
      simp only [Bool.and_eq_true]
      exact ⟨h.1, hb' h.2⟩
  . exact fun b hb h => h.imp_left hb
  . exact fun b hb h => h.imp_left hb

theorem within {ctx : Context} {c d : Class} (hcycle : (c.name, d.name) ∈ active → P)
    (hp : (c.name, d.name) ∉ active → active.length < min limits.maxDepth Guard.maxActive →
      Decides limits ((c.name, d.name) :: active) p P Q)
    : Decides limits active ((checker ctx).within c d p) P Q := by
  intro g hg
  rcases hg.enter_cases (c.name, d.name) with
    ⟨hadmission, hg', hlimit⟩ | ⟨hadmission, hkey, hg', hlimit⟩ | ⟨hadmission, hroom, hg', hlimit⟩
  . rw [within_run_of_isExceeded p hadmission]
    exact ⟨hg', fun _ => hlimit, Bool.noConfusion, fun h => by rw [hlimit] at h; cases h⟩
  -- The answer to a comparison under way is on credit, so `hcycle` is needed only for soundness.
  . rw [within_run_of_cycle p hadmission]
    exact ⟨hg', fun h => by rwa [hlimit], fun _ => hcycle hkey, fun _ _ => rfl⟩
  . rw [within_run_of_entered p hadmission]
    rcases hp (hg.not_mem_of_entered hadmission) hroom _ hg' with
      ⟨hend, hexceeded, hsound, hcomplete⟩
    rw [hlimit] at hexceeded
    exact ⟨hend.leave, hexceeded, hsound, hcomplete⟩

end Decides

section Check

variable {ctx : Context} {strict : Bool} {P Q : Ty Class → Ty Class → Prop}
  (hP : ∀ s t, ctx.Step strict P s t → P s t)
  (hQ : ∀ s t, s.class? = none ∨ t.class? = none → Q s t → ctx.Step strict Q s t)
  {limits : Limits} {active : List (String × String)}

include hP hQ in
theorem acceptedBy_decides {source : Ty Class} (hwild : source.isWild = false)
    (hunion : source.isUnion = false) {K : Class → Prop} {accepts : Ty Class → Guarded Bool}
    (h : ∀ t, t.All K → (source == t) = false → t.isTop = false → t.isUnion = false →
      Decides limits active (accepts t) (P source t) (Q source t))
    {target : Ty Class} (htarget : target.All K)
    : Decides limits active (Ty.acceptedBy source accepts target)
        (P source target) (Q source target) := by
  induction target with
  | any | unknown =>
    unfold Ty.acceptedBy
    split <;> exact Decides.pure (fun _ => hP _ _ (.top rfl)) (fun _ => rfl)
  | union members ih =>
    have hany := Decides.anyM fun t ht => ih t ht (Ty.all_union.1 htarget t ht)
    rw [← Ty.acceptedByAny_eq] at hany
    unfold Ty.acceptedBy
    split
    . next hsame => exact Decides.pure (fun _ => hP _ _ (.same hsame)) (fun _ => rfl)
    . next hsame =>
      apply hany.weaken
      . intro h
        rcases h with ⟨t, ht, hst⟩
        exact hP _ _ (.some hwild hunion ht hst)
      . intro hq
        cases hQ _ _ (.inr rfl) hq with
        | same h => exact absurd h hsame
        | wild h => rw [hwild] at h; cases h
        | each => cases hunion
        | some _ _ ht hst => exact ⟨_, ht, hst⟩
        | top h | table h | base h => cases h
  | nil | primitive p | cls c | array element | generic base params =>
    unfold Ty.acceptedBy
    split
    . next hsame => exact Decides.pure (fun _ => hP _ _ (.same hsame)) (fun _ => rfl)
    . next hsame => exact h _ htarget (by simpa using hsame) rfl rfl

variable {K : Class → Prop} {classCheck : Class → Ty Class → Guarded Bool}
  (hcls : ∀ c t, K c → t.All K →
    Decides limits active (classCheck c t) (P (.cls c) t) (Q (.cls c) t))

theorem checkEach_decides {sources targets : List (Ty Class)}
    (ih : ∀ s ∈ sources, ∀ t ∈ targets,
      Decides limits active (Ty.check classCheck strict s t) (P s t) (Q s t))
    : Decides limits active (Ty.checkEach classCheck strict sources targets)
        (∀ p ∈ sources.zip targets, P p.1 p.2) (∀ p ∈ sources.zip targets, Q p.1 p.2) := by
  induction sources generalizing targets with
  | nil => exact Decides.pure (fun _ => by simp) (fun _ => rfl)
  | cons s rest ihrest =>
    cases targets with
    | nil => exact Decides.pure (fun _ => by simp) (fun _ => rfl)
    | cons t targets =>
      have hfirst := ih s List.mem_cons_self t List.mem_cons_self
      have hrest := ihrest fun u hu v hv =>
        ih u (List.mem_cons_of_mem s hu) v (List.mem_cons_of_mem t hv)
      exact (hfirst.andThen hrest).weaken (by simp) (by simp)

include hP hQ in
theorem wild_decides {source : Ty Class} (hwild : source.isWild = true) (target : Ty Class)
    : Decides limits active (pure (target == source || target.isTop || !strict))
        (P source target) (Q source target) := by
  have hcomm : (target == source) = (source == target) := by
    cases source <;> cases hwild <;> cases target <;> rfl
  rw [hcomm]
  apply Decides.pure
  . intro h
    apply hP
    simp only [Bool.or_eq_true, Bool.not_eq_true'] at h
    rcases h with (h | h) | h
    . exact .same h
    . exact .top h
    . exact .wild hwild h
  . intro hq
    have hclass : source.class? = none := by
      cases source <;> cases hwild <;> rfl
    cases hQ _ _ (.inl hclass) hq with
    | same h | top h => simp [h]
    | wild _ h => simp [h]
    | some h => rw [hwild] at h; cases h
    | _ => cases hwild

include hP hQ hcls in
theorem check_decides {source target : Ty Class} (hsource : source.All K) (htarget : target.All K)
    : Decides limits active (Ty.check classCheck strict source target)
        (P source target) (Q source target) := by
  induction source generalizing target with
  | any | unknown | nil => exact wild_decides hP hQ rfl target
  | primitive p =>
    apply acceptedBy_decides hP hQ rfl rfl _ htarget
    intro t ht hsame htop hunion
    have hstep : ¬Q (.primitive p) t := by
      intro hq
      cases hQ _ _ (.inl rfl) hq with
      | same h => rw [hsame] at h; cases h
      | top h => rw [htop] at h; cases h
      | wild h => cases h
      | some => cases hunion
    cases t with
    | primitive q =>
      have hpq : (p == q) = false := hsame
      simp only [hpq]
      exact Decides.pure (fun h => nomatch h) (fun h => absurd h hstep)
    | _ => exact Decides.pure (fun h => nomatch h) (fun h => absurd h hstep)
  | cls c =>
    apply acceptedBy_decides hP hQ rfl rfl _ htarget
    intro t ht _ _ _
    exact hcls c t (Ty.all_cls.1 hsource) ht
  | array element ih =>
    apply acceptedBy_decides hP hQ rfl rfl _ htarget
    intro t ht hsame htop hunion
    have hstep : Q (.array element) t →
        t = .primitive .table ∨ ∃ element', t = .array element' ∧ Q element element' := by
      intro hq
      cases hQ _ _ (.inl rfl) hq with
      | same h => rw [hsame] at h; cases h
      | top h => rw [htop] at h; cases h
      | wild h => cases h
      | some => cases hunion
      | arrayTable => exact .inl rfl
      | element h => exact .inr ⟨_, rfl, h⟩
    cases t with
    | array element' =>
      apply (ih (Ty.all_array.1 hsource) (Ty.all_array.1 ht)).weaken
      . exact fun h => hP _ _ (.element h)
      . intro h
        rcases hstep h with h | ⟨_, h, hq⟩
        . cases h
        . cases h
          exact hq
    | primitive p =>
      cases p with
      | table => exact Decides.pure (fun _ => hP _ _ .arrayTable) (fun _ => rfl)
      | _ => exact Decides.pure (fun h => nomatch h) (fun h => by simpa using hstep h)
    | _ => exact Decides.pure (fun h => nomatch h) (fun h => by simpa using hstep h)
  | generic base params hbase hparams =>
    rcases Ty.all_generic.1 hsource with ⟨hb, hp⟩
    apply acceptedBy_decides hP hQ rfl rfl _ htarget
    intro t ht hsame htop hunion
    have hstep : Q (.generic base params) t →
        t.isGeneric = false ∧ Q base t ∨
        ∃ base' params', t = .generic base' params' ∧ (base == base') = true ∧
          params.length = params'.length ∧ ∀ p ∈ params.zip params', Q p.1 p.2 := by
      intro hq
      cases hQ _ _ (.inl rfl) hq with
      | same h => rw [hsame] at h; cases h
      | top h => rw [htop] at h; cases h
      | wild h => cases h
      | some => cases hunion
      | params hbase hlength h => exact .inr ⟨_, _, rfl, hbase, hlength, h⟩
      | base _ hgeneric h => exact .inl ⟨hgeneric, h⟩
    cases t with
    | generic base' params' =>
      rcases Ty.all_generic.1 ht with ⟨_, hp'⟩
      simp only
      split
      . next heq =>
        simp only [Bool.and_eq_true, beq_iff_eq] at heq
        apply (checkEach_decides fun s hs t ht => hparams s hs (hp s hs) (hp' t ht)).weaken
        . exact fun h => hP _ _ (.params heq.1 heq.2 h)
        . intro h
          rcases hstep h with ⟨h, _⟩ | ⟨_, _, h, _, _, hq⟩
          . cases h
          . cases h
            exact hq
      . next hne =>
        apply Decides.pure (fun h => nomatch h)
        intro h
        rcases hstep h with ⟨h, _⟩ | ⟨_, _, h, hbeq, hlength, _⟩
        . cases h
        . cases h
          simp [hbeq, hlength] at hne
    | any | unknown => cases htop
    | union members => cases hunion
    | nil | primitive p | cls c | array element =>
      apply (hbase hb ht).weaken
      . exact fun h => hP _ _ (.base rfl rfl h)
      . intro h
        rcases hstep h with ⟨_, h⟩ | ⟨_, _, h, _⟩
        . exact h
        . cases h
  | union members ih =>
    unfold Ty.check
    split
    . next h =>
      apply Decides.pure _ fun _ => rfl
      intro _
      rcases Bool.or_eq_true_iff.1 h with h | h
      . exact hP _ _ (.same h)
      . exact hP _ _ (.top h)
    . next h =>
      simp only [Bool.or_eq_true, not_or] at h
      have hall := Decides.allM fun s hs => ih s hs (Ty.all_union.1 hsource s hs) htarget
      rw [← Ty.checkAll_eq] at hall
      apply hall.weaken
      . exact fun h => hP _ _ (.each h)
      . intro hq
        cases hQ _ _ (.inl rfl) hq with
        | same h' => exact absurd h' h.1
        | top h' => exact absurd h' h.2
        | each h => exact h
        | wild h' | some _ h' => cases h'

end Check

section Class

variable {ctx : Context} {strict : Bool} {P Q : Ty Class → Ty Class → Prop}
  (hP : ∀ s t, ctx.Step strict P s t → P s t)
  (hQ : ∀ s t, s.class? = none ∨ t.class? = none → Q s t → ctx.Step strict Q s t)
  {limits : Limits} {active : List (String × String)} {conforms : Class → Class → Guarded Bool}

include hP in
theorem isRelated_decides {c target : Class} {A : Prop}
    (hconforms : (ctx.knownHeader target).isInterface = true →
      Decides limits active (conforms c target) (P (.cls c) (.cls target)) A)
    (hA : Q (.cls c) (.cls target) → ctx.ClassStep A c target) (hne : (c == target) = false)
    : Decides limits active ((checker ctx).isRelated conforms c target)
        (P (.cls c) (.cls target)) (Q (.cls c) (.cls target)) := by
  rw [isRelated_eq]
  split
  . next h => exact Decides.pure (fun _ => hP _ _ (.ancestor h)) (fun _ => rfl)
  . next hancestor =>
    have hstep : Q (.cls c) (.cls target) →
        (ctx.knownHeader target).isInterface = true ∧ A := by
      intro hq
      cases hA hq with
      | same h => rw [hne] at h; cases h
      | ancestor h => exact absurd h hancestor
      | interface hinterface h => exact ⟨hinterface, h⟩
    split
    . next hinterface => exact (hconforms hinterface).weaken id fun h => (hstep h).2
    . next hinterface =>
      exact Decides.pure (fun h => nomatch h) fun h => absurd (hstep h).1 hinterface

include hP hQ in
theorem shape_decides (c : Class) {target : Ty Class} (hsame : (.cls c == target) = false)
    (htop : target.isTop = false) (hunion : target.isUnion = false)
    (hclass : target.class? = none)
    : Decides limits active (pure (target.isTable || target.isArray && c.isEmptyTable))
        (P (.cls c) target) (Q (.cls c) target) := by
  apply Decides.pure
  . intro h
    apply hP
    simp only [Bool.or_eq_true, Bool.and_eq_true] at h
    rcases h with h | ⟨harray, h⟩
    . exact .table h
    . cases target with
      | array element => exact .emptyTable h
      | _ => cases harray
  . intro hq
    cases hQ _ _ (.inr hclass) hq with
    | same h => rw [hsame] at h; cases h
    | top h => rw [htop] at h; cases h
    | wild h => cases h
    | some => cases hunion
    | table h => simp [h]
    | emptyTable h => simp [h, Ty.isArray]
    | ancestor | interface => cases hclass

variable {K : Class → Prop} {A : Class → Class → Prop}
  (hconforms : ∀ c d, K c → K d → (ctx.knownHeader d).isInterface = true →
    Decides limits active (conforms c d) (P (.cls c) (.cls d)) (A c d))
  (hA : ∀ c d, Q (.cls c) (.cls d) → ctx.ClassStep (A c d) c d)

include hP hQ hconforms hA in
theorem checkClass_decides {c : Class} (hc : K c) {target : Ty Class} (htarget : target.All K)
    : Decides limits active ((checker ctx).checkClass conforms c target)
        (P (.cls c) target) (Q (.cls c) target) := by
  induction target with
  | any | unknown => exact Decides.pure (fun _ => hP _ _ (.top rfl)) (fun _ => rfl)
  | cls target =>
    rw [checkClass_cls, Class.beq_comm]
    split
    . next h => exact Decides.pure (fun _ => hP _ _ (.same h)) (fun _ => rfl)
    . next h =>
      exact isRelated_decides hP (hconforms c target hc (Ty.all_cls.1 htarget)) (hA c target)
        (by simpa using h)
  | union members ih =>
    have hany := Decides.anyM fun t ht => ih t ht (Ty.all_union.1 htarget t ht)
    rw [← checkClass_union] at hany
    apply hany.weaken
    . intro h
      rcases h with ⟨t, ht, hct⟩
      exact hP _ _ (.some rfl rfl ht hct)
    . intro hq
      cases hQ _ _ (.inr rfl) hq with
      | some _ _ ht h => exact ⟨_, ht, h⟩
      | same h | top h | wild h | table h => cases h
  | nil | primitive p | array element | generic base params =>
    rw [checkClass_shape rfl rfl rfl]
    exact shape_decides hP hQ c rfl rfl rfl rfl

end Class

section Members

variable {ctx : Context} {limits : Limits} {active : List (String × String)}
  {P Q : Ty Class → Ty Class → Prop} {subtype : Ty Class → Ty Class → Guarded Bool}
  (hsubtype : ∀ e e', Decides limits active (subtype (.lower e) (.lower e'))
    (P (.lower e) (.lower e')) (Q (.lower e) (.lower e')))

include hsubtype in
theorem hasMember_decides (c interface : Class) (required : Member)
    : Decides limits active ((checker ctx).hasMember subtype c interface required)
        (ctx.ProvidesMember P c required) (ctx.ProvidesMember Q c required) := by
  rw [hasMember_eq]
  unfold Context.ProvidesMember
  cases required.name.bind (ctx.member? c) with
  | none => exact Decides.pure (fun h => nomatch h) (by simp)
  | some provided => exact (hsubtype provided.type required.type).weaken (by simp) (by simp)

include hsubtype in
theorem hasMembers_decides (c interface : Class) (required : List Member)
    : Decides limits active ((checker ctx).hasMembers subtype c interface required)
        (∀ m ∈ required, ctx.ProvidesMember P c m) (∀ m ∈ required, ctx.ProvidesMember Q c m) := by
  induction required with
  | nil => exact Decides.pure (fun _ => by simp) (fun _ => rfl)
  | cons m rest ih =>
    exact ((hasMember_decides hsubtype c interface m).both ih).weaken (by simp) (by simp)

end Members

section Conforms

variable {ctx : Context} {strict : Bool} {limits : Limits} {active base : List (String × String)}

theorem subtype_decides {room : Nat}
    (hconforms : ∀ c d : Class, c.IsReference → d.IsReference →
      (ctx.knownHeader d).isInterface = true →
      Decides limits active ((checker ctx).conforms strict room c d)
        (ctx.RelatedAmid strict active (.cls c) (.cls d))
        (ctx.Provides (ctx.RelatedAmid strict base) c d ∨
          Context.Assumed ctx base (.cls c) (.cls d)))
    {s t : Ty Class} (hs : s.All Class.IsReference) (ht : t.All Class.IsReference)
    : Decides limits active ((checker ctx).subtype strict room s t)
        (ctx.RelatedAmid strict active s t) (ctx.RelatedAmid strict base s t) := by
  have hP : ∀ s t, ctx.Step strict (ctx.RelatedAmid strict active) s t →
      ctx.RelatedAmid strict active s t := fun _ _ => Context.RelatedAmid.step
  have hQ : ∀ s t, s.class? = none ∨ t.class? = none → ctx.RelatedAmid strict base s t →
      ctx.Step strict (ctx.RelatedAmid strict base) s t := fun _ _ => Context.RelatedAmid.dest
  apply check_decides hP hQ _ hs ht
  intro c u hc hu
  exact checkClass_decides hP hQ hconforms (fun _ _ => Context.RelatedAmid.classStep) hc hu

theorem conforms_decides (room : Nat)
    (hroom : min limits.maxDepth Guard.maxActive - active.length < room) (hbase : base ⊆ active)
    {c interface : Class} (hc : c.IsReference) (hd : interface.IsReference)
    (hinterface : (ctx.knownHeader interface).isInterface = true)
    : Decides limits active ((checker ctx).conforms strict room c interface)
        (ctx.RelatedAmid strict active (.cls c) (.cls interface))
        (ctx.Provides (ctx.RelatedAmid strict base) c interface ∨
          Context.Assumed ctx base (.cls c) (.cls interface)) := by
  -- The room shrinks with each comparison that starts, but the guard refuses before it is used up.
  induction room generalizing active c interface with
  | zero => omega
  | succ room ih =>
    apply Decides.within
    . intro hkey
      rw [hd] at hinterface
      rw [hc, hd]
      exact .inr (.intro hkey hinterface)
    . intro hkey hactive
      have hroom' :
          min limits.maxDepth Guard.maxActive - ((c.name, interface.name) :: active).length
            < room := by
        rw [List.length_cons]
        omega
      have hbase' := List.subset_cons_of_subset (c.name, interface.name) hbase
      have hsubtype := fun e e' => subtype_decides (fun _ _ => ih hroom' hbase') (Ty.all_lower e)
        (Ty.all_lower e')
      apply (hasMembers_decides hsubtype c interface (ctx.ownMemberList interface)).weaken
      . exact fun h => .of_provides hc hd hinterface h
      . exact fun h => h.resolve_right fun hassumed => hkey (hbase hassumed.mem)

theorem isSubtype_decides {s t : Ty Class} (hs : s.All Class.IsReference)
    (ht : t.All Class.IsReference) (hbase : base ⊆ active)
    : Decides limits active (isSubtype ctx s t strict)
        (ctx.RelatedAmid strict active s t) (ctx.RelatedAmid strict base s t) := by
  intro g hg
  unfold isSubtype Checker.isSubtype
  rw [run_bind, bound_run]
  exact subtype_decides (fun _ _ => conforms_decides (g.room + 1) hg.room_lt hbase) hs ht g hg

theorem isSubtype_lower_decides (ctx : Context) (strict : Bool) (e e' : TypeExpr)
    : Decides limits [] (isSubtype ctx (.lower e) (.lower e') strict)
        (ctx.Related strict (.lower e) (.lower e'))
        (ctx.Related strict (.lower e) (.lower e')) := by
  apply (isSubtype_decides (Ty.all_lower e) (Ty.all_lower e') (List.Subset.refl [])).weaken
  . exact fun h => h.related
  . exact fun h => .inl (.of_related h)

end Conforms

end Guarded

namespace Context

open Query

/--
Whether the type of one expression can be used where the type of another is expected.
-/
def compare (ctx : Context) (e e' : TypeExpr) (strict : Bool) : Query Bool := do
  let s ← (Ty.ofExpr e).instantiate
  let t ← (Ty.ofExpr e').instantiate
  ctx.isSubtype s t strict

theorem compare_mirrors (ctx : Context) [ctx.Quiet] (e e' : TypeExpr) (strict : Bool)
    : Mirrors ctx [] (ctx.compare e e' strict)
        (Guarded.isSubtype ctx (.lower e) (.lower e') strict) := by
  apply ((Ty.ofExpr e).instantiate_makes []).yields.follows
  intro w s hw hs
  apply ((Ty.ofExpr e').instantiate_makes w).yields.follows
  intro w' t hw' ht
  unfold Ty.lower
  rw [← hs.erase_eq, ← ht.erase_eq]
  exact isSubtype_mirrors (hs.known.mono hw') ht.known strict

theorem compare_verdict (ctx : Context) [ctx.Quiet] (limits : Limits) (e e' : TypeExpr)
    (strict : Bool)
    : (((ctx.compare e e' strict).run (.fresh limits)).1 = true →
        ctx.Related strict (.lower e) (.lower e')) ∧
      (((ctx.compare e e' strict).run (.fresh limits)).2.guard.exceeded = false →
        ctx.Related strict (.lower e) (.lower e') →
        ((ctx.compare e e' strict).run (.fresh limits)).1 = true) := by
  rcases ctx.compare_mirrors e e' strict [] _ (List.prefix_refl [])
    (QueryState.fresh_coherent ctx limits) with ⟨_, _, _, hguard, hanswer⟩
  have hnew : (QueryState.fresh limits).guard.At limits [] := ⟨rfl, rfl, rfl⟩
  have hverdict := Guarded.isSubtype_lower_decides ctx strict e e' _ hnew
  rw [hguard, hanswer]
  exact ⟨hverdict.sound, hverdict.complete⟩

end Context

/--
An interface of linked nodes, and a class of linked items that does not name it.
-/
def Index.linked : Index :=
  let i : Index := {}
  let i := i.declare { name := "Node", header := { isInterface := true } }
  let i := i.declare { name := "Item", header := {} }
  let i := i.addMember "Node" (.new "next" .pub (.named "Node"))
  i.addMember "Item" (.new "next" .pub (.named "Item"))

theorem related_of_compare (index : Index) (options : Options) (scope : Scope) (limits : Limits)
    (strict : Bool) (e e' : TypeExpr)
    (h : ((Context.compare { index, options, scope } e e' strict).run (.fresh limits)).1 = true)
    : Context.Related { index, options, scope } strict (.lower e) (.lower e') :=
  (Context.compare_verdict _ limits e e' strict).1 h

theorem related_item_node
    : ((Context.compare { index := .linked } (.named "Item") (.named "Node") true).run
        (.fresh ⟨2, 2⟩)).1 = true ∧
      Context.Related { index := .linked } true (.lower (.named "Item")) (.lower (.named "Node")) := by
  have haccepts : ((Context.compare { index := .linked } (.named "Item") (.named "Node") true).run
      (.fresh ⟨2, 2⟩)).1 = true := by
    decide +kernel
  exact ⟨haccepts, related_of_compare .linked {} .project ⟨2, 2⟩ true _ _ haccepts⟩

theorem compare_of_related (index : Index) (options : Options) (scope : Scope) (limits : Limits)
    (strict : Bool) (e e' : TypeExpr)
    (h : Context.Related { index, options, scope } strict (.lower e) (.lower e'))
    (hlimit : ((Context.compare { index, options, scope } e e' strict).run
      (.fresh limits)).2.guard.exceeded = false)
    : ((Context.compare { index, options, scope } e e' strict).run (.fresh limits)).1 = true :=
  (Context.compare_verdict _ limits e e' strict).2 hlimit h

theorem compare_item_node
    : Context.Related { index := .linked } true (.lower (.named "Item")) (.lower (.named "Node")) ∧
      ((Context.compare { index := .linked } (.named "Item") (.named "Node") true).run
        (.fresh ⟨2, 2⟩)).2.guard.exceeded = false ∧
      ((Context.compare { index := .linked } (.named "Item") (.named "Node") true).run
        (.fresh ⟨2, 2⟩)).1 = true := by
  let R : Ty Class → Ty Class → Prop := fun s t =>
    s = .cls (.reference "Item") ∧ t = .cls (.reference "Node")
  have hmembers : Context.ownMemberList { index := .linked } (.reference "Node")
      = [{ name := some "next", owner := "Node", visibility := .pub, type := .named "Node" }] := by
    rfl
  have hmember : Context.member? { index := .linked } (.reference "Item") "next"
      = some { name := some "next", owner := "Item", visibility := .pub,
               type := .named "Item" } := by
    rfl
  have hrelated : Context.Related { index := .linked } true (.lower (.named "Item"))
      (.lower (.named "Node")) := by
    refine ⟨R, ?_, rfl, rfl⟩
    rintro s t ⟨rfl, rfl⟩
    apply Context.Step.interface
    . decide +kernel
    . intro required hrequired
      rw [hmembers, List.mem_singleton] at hrequired
      subst hrequired
      exact ⟨_, hmember, rfl, rfl⟩
  have hlimit : ((Context.compare { index := .linked } (.named "Item") (.named "Node") true).run
      (.fresh ⟨2, 2⟩)).2.guard.exceeded = false := by
    decide +kernel
  exact ⟨hrelated, hlimit, compare_of_related .linked {} .project ⟨2, 2⟩ true _ _ hrelated hlimit⟩

-- A smaller bound on the nesting refuses the comparison that would close the cycle.
example
    : ((Context.compare { index := .linked } (.named "Item") (.named "Node") true).run
        (.fresh ⟨1, 2⟩)).1 = false := by
  decide +kernel

end LuaClasses
