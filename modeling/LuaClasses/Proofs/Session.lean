import LuaClasses.Proofs.Agreement
import LuaClasses.Proofs.Simulation

/-!
This module contains sessions, in which class values are made and asked about in any order. A class
asks the index once and keeps what it was told, and the guard is shared by all comparisons. Still,
what a query answers does not depend on the queries before it.
-/

namespace LuaClasses

open Query

/--
A change of types that does not look at the cells of their classes.
-/
structure Substitution where
  apply : Ty Class → Ty Class
  erase_apply : ∀ s t, s.erase = t.erase → (apply s).erase = (apply t).erase

/--
A query about the structure of classes and types.
-/
inductive Request where
  | ancestors (c : Class)
  /-- The walk over the interfaces goes on while the classes seen so far pass the test. -/
  | interfaces (c : Class) (goesOn : List Class → Bool)
  | ownMembers (c : Class)
  | members (c : Class) (deep : Bool)
  | visibleMembers (c viewer : Class)
  | findMember (c : Class) (name : String)
  | keyType (c : Class) (key : Key)
  | alternateNames (c : Class)
  | recoverAlias (c : Class) (substitution : Substitution)
  | subtype (source target : Ty Class) (strict : Bool)
  | subclass (c : Class) (target : Ty Class) (strict : Bool)

inductive Answer where
  | classes (cs : List Class)
  | walk (finished : Bool) (seen : List Class)
  | members (ms : List Member)
  | memberPairs (ps : List (Class × Member))
  | member (m : Option Member)
  | type (t : Option (Ty Class))
  | names (ns : List String)
  | verdict (b : Bool)

namespace Answer

def mentions : Answer → List Class
  | .classes cs => cs
  | .walk _ seen => seen
  | .memberPairs ps => ps.map (·.1)
  | .type t => (t.map Ty.classes).getD []
  | _ => []

def erase : Answer → Answer
  | .classes cs => .classes (cs.map Class.erase)
  | .walk finished seen => .walk finished (seen.map Class.erase)
  | .memberPairs ps => .memberPairs (ps.map Context.erasePair)
  | .type t => .type (t.map Ty.erase)
  | answer => answer

end Answer

namespace Request

def visitor (goesOn : List Class → Bool) : Visitor (List Class) := fun c => do
  modify (· ++ [c])
  return goesOn (← get)

def run (ctx : Context) : Request → Query Answer
  | .ancestors c => do return .classes (← ctx.ancestors c)
  | .interfaces c goesOn => do
    let (finished, seen) ← (ctx.walkInterfaces c (visitor goesOn)).run []
    return .walk finished seen
  | .ownMembers c => do return .members (← ctx.ownMembers c)
  | .members c deep => do return .memberPairs (← ctx.members c deep)
  | .visibleMembers c viewer => do return .memberPairs (← ctx.visibleMembers c viewer)
  | .findMember c name => do return .member (← ctx.findMemberOf c name)
  | .keyType c key => do return .type (← ctx.keyType c key)
  | .alternateNames c => do return .names (← ctx.alternateNames c)
  | .recoverAlias c substitution => do
    return .type (some (← ctx.recoverAlias c substitution.apply))
  | .subtype source target strict => do return .verdict (← ctx.isSubtype source target strict)
  | .subclass c target strict => do return .verdict (← ctx.isSubclass c target strict)

def mentions : Request → List Class
  | .ancestors c => [c]
  | .interfaces c _ => [c]
  | .ownMembers c => [c]
  | .members c _ => [c]
  | .visibleMembers c viewer => [c, viewer]
  | .findMember c _ => [c]
  | .keyType c _ => [c]
  | .alternateNames c => [c]
  | .recoverAlias c _ => [c]
  | .subtype source target _ => source.classes ++ target.classes
  | .subclass c target _ => c :: target.classes

def erase : Request → Request
  | .ancestors c => .ancestors c.erase
  | .interfaces c goesOn => .interfaces c.erase goesOn
  | .ownMembers c => .ownMembers c.erase
  | .members c deep => .members c.erase deep
  | .visibleMembers c viewer => .visibleMembers c.erase viewer.erase
  | .findMember c name => .findMember c.erase name
  | .keyType c key => .keyType c.erase key
  | .alternateNames c => .alternateNames c.erase
  | .recoverAlias c substitution =>
    .recoverAlias c.erase ⟨fun t => (substitution.apply t).erase, by
      intro s t h
      rw [substitution.erase_apply s t h]⟩
  | .subtype source target strict => .subtype source.erase target.erase strict
  | .subclass c target strict => .subclass c.erase target.erase strict

/--
Whether a query is about classes of the pool only.
-/
def Over (pool : List Class) : Request → Prop
  | .recoverAlias c substitution =>
    c ∈ pool ∧ ∀ t, ∀ d ∈ (substitution.apply t).classes, d ∈ t.classes ∨ d ∈ pool
  | r => ∀ c ∈ r.mentions, c ∈ pool

end Request

inductive Maker where
  | reference (name : String)
  | persisted (name : String) (varName superName aliasName : Option String) (flags : Flags)
  | localVariable (file : String) (offset : Nat) (name : String)
  | globalVariable (name : String) (store : Bool)
  | declaration (d : ClassDecl)
  | tableLiteral (file : String) (offset : Nat) (fields : List Member)
  | docTable (file : String) (offset : Nat) (fields : List Member)
  | type (e : TypeExpr)

def Maker.run (ctx : Context) : Maker → Query (Ty Class)
  | .reference name => do return .cls (← Class.ofName name)
  | .persisted name varName superName aliasName flags => do
    return .cls (← Class.ofFields name varName superName aliasName flags)
  | .localVariable file offset name => do return .cls (← Class.ofLocal file offset name)
  | .globalVariable name store => Ty.ofGlobal name store ctx.options
  | .declaration d => return .cls (.ofDecl d)
  | .tableLiteral file offset fields => return .cls (.ofTableLiteral file offset fields)
  | .docTable file offset fields => return .cls (.ofDocTable file offset fields)
  | .type e => (Ty.ofExpr e).instantiate

/--
The sessions with a context. A session has a history of queries, a pool of the class values that
were made or answered, and a state.
-/
inductive Session (ctx : Context) (limits : Limits) :
    List Request → List Class → QueryState → Prop where
  | start : Session ctx limits [] [] (.fresh limits)
  | make (m : Maker) : Session ctx limits history pool s →
      Session ctx limits history (pool ++ ((m.run ctx).run s).1.classes) ((m.run ctx).run s).2
  | ask (r : Request) : Session ctx limits history pool s → r.Over pool →
      Session ctx limits (history ++ [r]) (pool ++ ((r.run ctx).run s).1.mentions)
        ((r.run ctx).run s).2

def Class.isDocTableRef (c : Class) : Bool :=
  match c.origin with
  | .docTableRef => true
  | _ => false

theorem Class.erase_isDocTableRef (c : Class) : c.erase.isDocTableRef = c.isDocTableRef := by
  rcases c with ⟨name, varName, flags, origin⟩
  cases origin <;> rfl

namespace Request

/--
The type that the name of a class is an alias of, changed by `substitute`, or the class itself.
-/
def recovered (ctx : Context) (c : Class) (substitute : Ty Class → Ty Class) : Ty Class :=
  if c.isAnonymous || c.isGlobal || c.isDocTableRef then .cls c
  else
    match ctx.aliasAt? c.name with
    | some a => substitute (.lower a.type)
    | none => .cls c

/--
What a query amounts to: a fact about the index, or a check whose only state is the guard.
-/
def meaning (ctx : Context) : Request → Guarded Answer
  | .ancestors c => return .classes (ctx.lineage c)
  | .interfaces c goesOn =>
    let walk := visitAll (fun c seen => (goesOn (seen ++ [c]), seen ++ [c]))
      (ctx.interfaceForest c) []
    return .walk walk.1 walk.2
  | .ownMembers c => return .members (ctx.ownMemberList c)
  | .members c deep => return .memberPairs (ctx.memberPairs c deep)
  | .visibleMembers c viewer => return .memberPairs (ctx.visiblePairs c viewer)
  | .findMember c name => return .member (ctx.member? c name)
  | .keyType c key => return .type ((ctx.keyMember? c key).map fun m => .lower m.type)
  | .alternateNames c => return .names (ctx.otherNames c)
  | .recoverAlias c substitution => return .type (some (recovered ctx c substitution.apply))
  | .subtype source target strict => do
    return .verdict (← Guarded.isSubtype ctx source target strict)
  | .subclass c target strict => do return .verdict (← Guarded.isSubclass ctx c target strict)

theorem meaning_agree (ctx : Context) (r : Request) {limits : Limits}
    {g g' : Guard (String × String)} (h : Guard.Alike limits [] g g')
    : ((r.meaning ctx).run g).1 = ((r.meaning ctx).run g').1 ∧
      Guard.Alike limits [] ((r.meaning ctx).run g).2 ((r.meaning ctx).run g').2 := by
  cases r with
  | subtype source target strict =>
    rcases Guarded.isSubtype_agree strict (ctx.paired_alike source) (ctx.paired_alike target) g g' h
      with ⟨hanswer, halike⟩
    exact ⟨congrArg Answer.verdict hanswer, halike⟩
  | subclass c target strict =>
    rcases Guarded.isSubclass_agree strict (ctx.paired_alike target) (.refl c) g g' h with
      ⟨hanswer, halike⟩
    exact ⟨congrArg Answer.verdict hanswer, halike⟩
  | _ => exact ⟨rfl, h⟩

end Request

/--
The answers say the same, and the classes of the first one are known.
-/
structure Answer.Matches (w : World) (a b : Answer) : Prop where
  known : ∀ c ∈ a.mentions, c.Known w
  erase_eq : a.erase = b.erase

theorem Answer.matches_type {w : World} {t u : Option (Ty Class)}
    (hknown : ∀ v ∈ t, v.All (Class.Known w)) (h : t.map Ty.erase = u.map Ty.erase)
    : (Answer.type t).Matches w (.type u) := by
  refine ⟨?_, congrArg Answer.type h⟩
  intro c hc
  cases t with
  | none => cases hc
  | some v => exact hknown v rfl c hc

theorem Request.recovered_erase (ctx : Context) (c : Class) (substitute : Ty Class → Ty Class)
    : (recovered ctx c.erase fun t => (substitute t).erase).erase
        =
      (recovered ctx c substitute).erase := by
  unfold recovered
  rw [Class.erase_isDocTableRef]
  change Ty.erase (if c.isAnonymous || c.isGlobal || c.isDocTableRef then _ else
    match ctx.aliasAt? c.name with | some a => _ | none => _) = _
  split
  . exact (Ty.cls c).erase_erase
  . cases ctx.aliasAt? c.name with
    | none => exact (Ty.cls c).erase_erase
    | some a => exact Ty.erase_erase _

section Run

variable {ctx : Context} {w : World}

theorem mem_of_mem_visitAll (goesOn : List Class → Bool) {cs seen : List Class} {c : Class}
    (h : c ∈ (visitAll (fun c seen => (goesOn (seen ++ [c]), seen ++ [c])) cs seen).2)
    : c ∈ seen ∨ c ∈ cs := by
  induction cs generalizing seen with
  | nil => exact .inl h
  | cons d rest ih =>
    have hseen : c ∈ seen ++ [d] ∨ c ∈ rest := by
      unfold visitAll at h
      cases hd : goesOn (seen ++ [d]) with
      | true =>
        rw [hd] at h
        exact ih h
      | false =>
        rw [hd] at h
        exact .inl h
    simp only [List.mem_append, List.mem_singleton] at hseen
    rcases hseen with (hseen | hseen) | hseen
    . exact .inl hseen
    . exact .inr (hseen ▸ List.mem_cons_self)
    . exact .inr (List.mem_cons_of_mem d hseen)

variable [ctx.Quiet]

theorem Request.follows_of_reads {q : Query α} {f : Class → α} {r : α → Answer} {b : Answer}
    {c : Class} (hq : ctx.Reads c q f) (hc : c.Known w) (hf : f (ctx.settled c) = f c)
    (hknown : ∀ a ∈ (r (f c)).mentions, a.Known w) (herase : (r (f c)).erase = b.erase)
    : Follows ctx w (do return r (← q)) (pure b) Answer.Matches := by
  apply Follows.bind_answers fun _ hw => hq.answers (hc.mono hw) hf
  apply Follows.pure
  intro w' hw
  exact ⟨fun a ha => (hknown a ha).mono hw, herase⟩

theorem Request.interfaces_reads (c : Class) (goesOn : List Class → Bool)
    : ctx.Reads c ((ctx.walkInterfaces c (visitor goesOn)).run []) fun d =>
        visitAll (fun c seen => (goesOn (seen ++ [c]), seen ++ [c]))
          (ctx.interfaceForest d) [] := by
  apply Context.walkInterfaces_reads
  intro a seen _
  exact Finds.pure _

theorem Context.findKeyMember_answers {c : Class} (hc : c.Known w) (key : Key)
    : Answers ctx w (ctx.findKeyMember c key) (ctx.keyMember? c key) := by
  have heither : ∀ exact general : String, Answers ctx w (ctx.findEither c exact general)
      ((ctx.member? c exact).or (ctx.member? c general)) := by
    intro exact general
    apply (findEither_reads c exact general).answers hc
    rw [(ctx.alike_settled c).member?_eq, (ctx.alike_settled c).member?_eq]
  cases key with
  | number text => exact heither _ _
  | string text => exact heither _ _
  | other => exact Answers.pure none

theorem Context.keyType_yields {c : Class} (hc : c.Known w) (key : Key)
    : Yields ctx w (ctx.keyType c key) fun w' t =>
        (∀ u ∈ t, u.All (Class.Known w')) ∧
        t.map Ty.erase = (ctx.keyMember? c key).map fun m => .lower m.type := by
  apply Follows.bind_answers fun _ hw => findKeyMember_answers (hc.mono hw) key
  cases ctx.keyMember? c key with
  | none => exact Yields.pure fun _ _ => ⟨nofun, rfl⟩
  | some m =>
    apply Yields.bind (ctx.infer_makes m).yields
    intro w₁ t hw₁ ht
    apply Yields.pure
    intro w₂ hw₂
    refine ⟨?_, congrArg some ht.erase_eq⟩
    intro u hu
    cases hu
    exact ht.known.mono hw₂

theorem Context.recoverAlias_yields {c : Class} (hc : c.Known w) (substitution : Substitution)
    (hknown : ∀ w' t, w <+: w' → t.All (Class.Known w') →
      (substitution.apply t).All (Class.Known w'))
    : Yields ctx w (ctx.recoverAlias c substitution.apply) fun w' t =>
        t.All (Class.Known w') ∧ t.erase = (Request.recovered ctx c substitution.apply).erase := by
  have hself : Yields ctx w (pure (Ty.cls c)) fun w' t =>
      t.All (Class.Known w') ∧ t.erase = (Ty.cls c).erase :=
    Yields.pure fun _ hw => ⟨Ty.all_cls.2 (hc.mono hw), rfl⟩
  unfold recoverAlias Request.recovered
  change Yields ctx w (if c.isAnonymous || c.isGlobal || c.isDocTableRef then _ else _) _
  split
  . exact hself
  . apply Follows.bind_answers fun _ _ => (findAlias_finds c.name).answers
    cases ctx.aliasAt? c.name with
    | none => exact hself
    | some a =>
      apply Follows.bind_answers fun _ _ => (Finds.note _).answers
      apply Yields.bind ((Ty.ofExpr a.type).instantiate_makes w).yields
      intro w₁ t hw₁ ht
      apply Yields.pure
      intro w₂ hw₂
      refine ⟨hknown w₂ t (hw₁.trans hw₂) (ht.known.mono hw₂), ?_⟩
      apply substitution.erase_apply
      rw [ht.erase_eq, Ty.erase_lower]
      rfl

omit [ctx.Quiet] in
theorem Context.known_of_mem_memberPairsAs {c d a : Class} {m : Member} {deep : Bool}
    (hc : c.Known w) (h : (a, m) ∈ ctx.memberPairsAs c d deep)
    : a.Known w := by
  rcases List.mem_append.1 h with h | h
  . rcases List.mem_map.1 h with ⟨_, _, heq⟩
    cases heq
    exact hc
  . split at h
    . rcases List.mem_flatMap.1 h with ⟨b, hb, h⟩
      rcases List.mem_map.1 h with ⟨_, _, heq⟩
      cases heq
      exact Class.known_of_cell?_eq_none (cell?_eq_none_of_mem_lineage hb)
    . cases h

namespace Request

theorem run_follows {pool : List Class} (hpool : ∀ c ∈ pool, c.Known w) {r : Request}
    (hr : r.Over pool)
    : Follows ctx w (r.run ctx) (r.erase.meaning ctx) Answer.Matches := by
  cases r with
  | ancestors c =>
    apply follows_of_reads (Context.ancestors_reads c) (hpool c (hr c List.mem_cons_self))
    . exact (ctx.alike_settled c).lineage_eq
    . intro a ha
      exact Class.known_of_cell?_eq_none (Context.cell?_eq_none_of_mem_lineage ha)
    . rw [(ctx.alike_erase c).lineage_eq]
  | interfaces c goesOn =>
    apply follows_of_reads (r := fun walk => .walk walk.1 walk.2) (interfaces_reads c goesOn)
      (hpool c (hr c List.mem_cons_self))
    . rw [(ctx.alike_settled c).interfaceForest_eq]
    . intro a ha
      rcases mem_of_mem_visitAll goesOn ha with ha | ha
      . cases ha
      . exact Class.known_of_cell?_eq_none (Context.cell?_eq_none_of_mem_interfaceForest ha)
    . rw [(ctx.alike_erase c).interfaceForest_eq]
  | ownMembers c =>
    apply follows_of_reads (Context.ownMembers_reads c) (hpool c (hr c List.mem_cons_self))
    . exact (ctx.alike_settled c).ownMemberList_eq
    . exact nofun
    . rw [(ctx.alike_erase c).ownMemberList_eq]
  | members c deep =>
    have hc := hpool c (hr c List.mem_cons_self)
    apply follows_of_reads (Context.members_reads c deep) hc
    . exact (ctx.alike_settled c).memberPairsAs_eq c deep
    . intro a ha
      rcases List.mem_map.1 ha with ⟨p, hp, rfl⟩
      exact Context.known_of_mem_memberPairsAs hc hp
    . have hpairs := (ctx.alike_erase c).memberPairs_map_eq c.erase_erase deep
      exact congrArg Answer.memberPairs hpairs.symm
  | visibleMembers c viewer =>
    have hc := hpool c (hr c List.mem_cons_self)
    apply follows_of_reads (Context.visibleMembers_reads c viewer) hc
    . rw [(ctx.alike_settled c).memberPairsAs_eq]
    . intro a ha
      rcases List.mem_map.1 ha with ⟨p, hp, rfl⟩
      exact Context.known_of_mem_memberPairsAs hc (List.mem_filter.1 (List.mem_filter.1 hp).1).1
    . have hpairs := (ctx.alike_erase c).visiblePairs_map_eq Class.erase_name Class.erase_flags
        c.erase_erase viewer.erase_erase
      exact congrArg Answer.memberPairs hpairs.symm
  | findMember c name =>
    apply follows_of_reads (Context.findMemberOf_reads c name) (hpool c (hr c List.mem_cons_self))
    . exact (ctx.alike_settled c).member?_eq name
    . exact nofun
    . rw [(ctx.alike_erase c).member?_eq]
  | alternateNames c =>
    apply follows_of_reads (Context.alternateNames_reads c) (hpool c (hr c List.mem_cons_self))
    . exact (ctx.alike_settled c).otherNames_eq
    . exact nofun
    . rw [(ctx.alike_erase c).otherNames_eq]
  | keyType c key =>
    have hc := hpool c (hr c List.mem_cons_self)
    apply (Context.keyType_yields hc key).follows
    intro w₁ t hw₁ ht
    apply Follows.pure
    intro w₂ hw₂
    apply Answer.matches_type
    . exact fun u hu => (ht.1 u hu).mono hw₂
    . rw [ht.2, (ctx.alike_erase c).keyMember?_eq]
      simp [Function.comp_def]
  | recoverAlias c substitution =>
    rcases hr with ⟨hc, hclasses⟩
    have hknown : ∀ w' t, w <+: w' → t.All (Class.Known w') →
        (substitution.apply t).All (Class.Known w') := by
      intro w' t hw ht d hd
      rcases hclasses t d hd with hd | hd
      . exact ht d hd
      . exact (hpool d hd).mono hw
    apply (Context.recoverAlias_yields (hpool c hc) substitution hknown).follows
    intro w₁ t hw₁ ht
    apply Follows.pure
    intro w₂ hw₂
    apply Answer.matches_type
    . rintro u ⟨⟩
      exact ht.1.mono hw₂
    . simp only [Option.map_some, ht.2, recovered_erase]
  | subtype source target strict =>
    have hsource : source.All (Class.Known w) :=
      fun c hc => hpool c (hr c (List.mem_append_left _ hc))
    have htarget : target.All (Class.Known w) :=
      fun c hc => hpool c (hr c (List.mem_append_right _ hc))
    apply Follows.bind (Context.isSubtype_mirrors hsource htarget strict)
    intro w₁ a b hw₁ hab
    subst hab
    exact Follows.pure fun _ _ => ⟨nofun, rfl⟩
  | subclass c target strict =>
    have hc := hpool c (hr c List.mem_cons_self)
    have htarget : target.All (Class.Known w) :=
      fun d hd => hpool d (hr d (List.mem_cons_of_mem c hd))
    apply Follows.bind (Context.isSubclass_mirrors hc htarget strict)
    intro w₁ a b hw₁ hab
    subst hab
    exact Follows.pure fun _ _ => ⟨nofun, rfl⟩

end Request

end Run

section Make

variable {ctx : Context} {w : World}

theorem Ty.all_unionOf_pair {p : Class → Prop} {c d : Class} (hc : p c) (hd : p d)
    : (unionOf [cls c, cls d]).All p := by
  have hsame : (cls d == cls c) = (d == c) := rfl
  unfold unionOf
  simp only [List.flatMap_cons, List.flatMap_nil, parts, List.append_nil, List.singleton_append,
    List.eraseDups_cons, List.filter_cons, hsame]
  cases d == c with
  | true => simpa using hc
  | false => simpa [List.eraseDups_cons] using ⟨hc, hd⟩

theorem Maker.run_makes (m : Maker)
    : Makes w (m.run ctx) fun w' t => t.All (Class.Known w') := by
  have hcls : ∀ {q : Query Class}, Makes w q (fun w' c => c.Known w') →
      Makes w (do return Ty.cls (← q)) fun w' t => t.All (Class.Known w') := by
    intro q hq
    apply hq.bind
    intro w₁ c hw₁ hc
    exact Makes.pure fun _ hw => Ty.all_cls.2 (hc.mono hw)
  have hpure : ∀ {c : Class}, c.origin.cell? = none →
      Makes w (pure (Ty.cls c)) fun w' t => t.All (Class.Known w') :=
    fun hc => Makes.pure fun _ _ => Ty.all_cls.2 (Class.known_of_cell?_eq_none hc)
  cases m with
  | reference name => exact hcls ((Class.ofName_makes name).weaken fun _ _ h => h.1)
  | persisted name varName superName aliasName flags =>
    exact hcls (Class.ofFields_makes name varName superName aliasName flags)
  | localVariable file offset name => exact hcls (Class.ofFields_makes _ _ _ _ _)
  | globalVariable name store =>
    apply Makes.bind (Class.ofFields_makes _ _ _ _ _)
    intro w₁ own hw₁ hown
    split
    . exact Makes.pure fun _ hw => Ty.all_cls.2 (hown.mono hw)
    . apply Makes.bind (Class.ofFields_makes _ _ _ _ _)
      intro w₂ plain hw₂ hplain
      exact Makes.pure fun _ hw =>
        Ty.all_unionOf_pair (hown.mono (hw₂.trans hw)) (hplain.mono hw)
  | declaration d => exact hpure rfl
  | tableLiteral file offset fields => exact hpure rfl
  | docTable file offset fields => exact hpure rfl
  | type e => exact ((Ty.ofExpr e).instantiate_makes w).weaken fun _ _ h => h.known

end Make

namespace Session

variable {ctx : Context} [ctx.Quiet] {limits : Limits} {history history' : List Request}
  {pool pool' : List Class} {s s' : QueryState}

/--
What holds all through a session: the cells and the classes fit to the index, and the guard is as
good as new.
-/
theorem invariant (h : Session ctx limits history pool s)
    : ∃ w, s.Coherent ctx w ∧ (∀ c ∈ pool, c.Known w) ∧ s.guard.Ready limits [] := by
  induction h with
  | start =>
    have hfresh := QueryState.fresh_coherent ctx limits
    exact ⟨[], hfresh, nofun, Guard.ready_new limits⟩
  | make m _ ih =>
    rcases ih with ⟨w, hs, hpool, hready⟩
    rcases m.run_makes.yields w _ (List.prefix_refl w) hs with ⟨w', hw, hs', hguard, hknown⟩
    refine ⟨w', hs', ?_, hguard ▸ hready⟩
    intro c hc
    rcases List.mem_append.1 hc with hc | hc
    . exact (hpool c hc).mono hw
    . exact hknown c hc
  | ask r _ hr ih =>
    rcases ih with ⟨w, hs, hpool, hready⟩
    rcases Request.run_follows hpool hr w _ (List.prefix_refl w) hs with
      ⟨w', hw, hs', hguard, hmatches⟩
    -- A query that hits a limit still leaves the guard ready for the next one.
    have hafter := (r.erase.meaning_agree ctx ⟨hready, hready, fun _ => rfl⟩).2.left
    refine ⟨w', hs', ?_, hguard ▸ hafter⟩
    intro c hc
    rcases List.mem_append.1 hc with hc | hc
    . exact (hpool c hc).mono hw
    . exact hmatches.known c hc

theorem reads_eq (h : Session ctx limits history pool s) {c : Class} (hc : c ∈ pool)
    {q : Query α} {f : Class → α} (hq : ctx.Reads c q f) (hf : f (ctx.settled c) = f c)
    : (q.run s).1 = f c := by
  rcases h.invariant with ⟨w, hs, hpool, _⟩
  exact (hq.answers (hpool c hc) hf s hs).1

/--
What a query answers is what it amounts to when the guard is new.
-/
theorem answer_erase (h : Session ctx limits history pool s) {r : Request} (hr : r.Over pool)
    : ((r.run ctx).run s).1.erase = ((r.erase.meaning ctx).run (.new limits)).1.erase := by
  rcases h.invariant with ⟨w, hs, hpool, hready⟩
  rcases Request.run_follows hpool hr w s (List.prefix_refl w) hs with ⟨_, _, _, _, hmatches⟩
  have hagree := (r.erase.meaning_agree ctx ⟨hready, Guard.ready_new limits, nofun⟩).1
  rw [hmatches.erase_eq, hagree]

theorem answer_erase_eq (h : Session ctx limits history pool s)
    (h' : Session ctx limits history' pool' s') {r r' : Request} (hr : r.Over pool)
    (hr' : r'.Over pool') (hsame : r.erase = r'.erase)
    : ((r.run ctx).run s).1.erase = ((r'.run ctx).run s').1.erase := by
  rw [h.answer_erase hr, h'.answer_erase hr', hsame]

end Session

theorem answer_independent_of_history (index : Index) (options : Options) (scope : Scope)
    (limits : Limits) {history : List Request} {pool pool' : List Class} {s s' : QueryState}
    (h : Session { index, options, scope } limits history pool s)
    (hfresh : Session { index, options, scope } limits [] pool' s') {r r' : Request}
    (hr : r.Over pool) (hr' : r'.Over pool') (hsame : r.erase = r'.erase)
    : ((r.run { index, options, scope }).run s).1.erase
        =
      ((r'.run { index, options, scope }).run s').1.erase :=
  h.answer_erase_eq hfresh hr hr' hsame

/--
Two interfaces, and two classes that do not name them. The comparison of the first class with the
first interface leads to that of the second ones.
-/
def Index.shapes : Index :=
  let i : Index := {}
  let i := i.declare { name := "Shape", header := { isInterface := true } }
  let i := i.declare { name := "Point", header := { isInterface := true } }
  let i := i.addMember "Shape" (.new "origin" .pub (.named "Point"))
  let i := i.addMember "Point" (.new "x" .pub (.named "number"))
  let i := i.addMember "Square" (.new "origin" .pub (.named "Dot"))
  i.addMember "Dot" (.new "x" .pub (.named "number"))

def Class.referenceAt (name : String) (cell : Nat) : Class :=
  { name, varName := name, flags := .empty, origin := .lazy cell }

theorem answer_after_limit
    : let ctx : Context := { index := .shapes }
      let square := Class.referenceAt "Square" 0
      let shape := Class.referenceAt "Shape" 1
      let dot := Class.referenceAt "Dot" 2
      let point := Class.referenceAt "Point" 3
      let made := (do
        discard ((Maker.reference "Square").run ctx)
        discard ((Maker.reference "Shape").run ctx)
        discard ((Maker.reference "Dot").run ctx)
        (Maker.reference "Point").run ctx : Query (Ty Class)).run (.fresh ⟨1, 9⟩)
      let asked := ((Request.subtype (.cls square) (.cls shape) true).run ctx).run made.2
      let fresh := (do
        discard ((Maker.reference "Point").run ctx)
        (Maker.reference "Dot").run ctx : Query (Ty Class)).run (.fresh ⟨1, 9⟩)
      let point' := Class.referenceAt "Point" 0
      let dot' := Class.referenceAt "Dot" 1
      asked.2.guard.exceeded = true ∧
      (((Request.subtype (.cls dot) (.cls point) true).run ctx).run asked.2).1.erase
        =
      (((Request.subtype (.cls dot') (.cls point') true).run ctx).run fresh.2).1.erase := by
  intro ctx square shape dot point made asked fresh point' dot'
  have hmade : Session ctx ⟨1, 9⟩ [] [square, shape, dot, point] made.2 :=
    .make (.reference "Point") (.make (.reference "Dot") (.make (.reference "Shape")
      (.make (.reference "Square") .start)))
  have hasked : Session ctx ⟨1, 9⟩ [.subtype (.cls square) (.cls shape) true]
      [square, shape, dot, point] asked.2 := by
    apply Session.ask _ hmade
    simp [Request.Over, Request.mentions, Ty.classes]
  have hfresh : Session ctx ⟨1, 9⟩ [] [point', dot'] fresh.2 :=
    .make (.reference "Dot") (.make (.reference "Point") .start)
  refine ⟨by decide +kernel, ?_⟩
  apply answer_independent_of_history .shapes {} .project ⟨1, 9⟩ hasked hfresh
  . simp [Request.Over, Request.mentions, Ty.classes]
  . simp [Request.Over, Request.mentions, Ty.classes]
  . rfl

end LuaClasses
