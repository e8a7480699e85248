import LuaClasses.Proofs.Lookup
import LuaClasses.Proofs.Persistence

/-!
This module contains the proof that it does not matter in which form a declared class is given: as
the class of the declaration, by the name alone, or as it is read back after it has been written.
Class values are compared as they are once the index has been asked about them.
-/

namespace LuaClasses

open Query

namespace Context

section Settled

variable (ctx : Context) (c : Class)

@[simp]
theorem settled_settled : ctx.settled (ctx.settled c) = ctx.settled c := by
  rcases c with ⟨name, varName, flags, origin⟩
  cases origin <;> rfl

@[simp]
theorem settled_erase : ctx.settled c.erase = ctx.settled c := by
  rcases c with ⟨name, varName, flags, origin⟩
  cases origin <;> rfl

theorem settled_isDocTableRef : (ctx.settled c).isDocTableRef = c.isDocTableRef := by
  rcases c with ⟨name, varName, flags, origin⟩
  cases origin <;> rfl

end Settled

end Context

/--
The answer with its classes as they are once the index has been asked.
-/
def Answer.settled (ctx : Context) : Answer → Answer
  | .classes cs => .classes (cs.map ctx.settled)
  | .walk finished seen => .walk finished (seen.map ctx.settled)
  | .memberPairs ps => .memberPairs (ps.map (Prod.map ctx.settled id))
  | .type t => .type (t.map (Ty.map ctx.settled))
  | answer => answer

theorem Ty.map_settled_erase (ctx : Context) (t : Ty Class)
    : t.erase.map ctx.settled = t.map ctx.settled := by
  have hcomp : ctx.settled ∘ Class.erase = ctx.settled := funext ctx.settled_erase
  unfold erase
  rw [map_map, hcomp]

theorem Answer.settled_erase (ctx : Context) (a : Answer)
    : a.erase.settled ctx = a.settled ctx := by
  cases a with
  | classes cs => simp [erase, settled]
  | walk finished seen => simp [erase, settled]
  | memberPairs ps => simp [erase, settled, Context.erasePair, Prod.map]
  | type t => simp [erase, settled, Ty.map_settled_erase, Function.comp_def]
  | _ => rfl

namespace Request

/--
The query about other classes.
-/
def map (f : Class → Class) : Request → Request
  | .ancestors c => .ancestors (f c)
  | .interfaces c goesOn => .interfaces (f c) goesOn
  | .ownMembers c => .ownMembers (f c)
  | .members c deep => .members (f c) deep
  | .visibleMembers c viewer => .visibleMembers (f c) (f viewer)
  | .findMember c name => .findMember (f c) name
  | .keyType c key => .keyType (f c) key
  | .alternateNames c => .alternateNames (f c)
  | .recoverAlias c substitution => .recoverAlias (f c) substitution
  | .subtype source target strict => .subtype (source.map f) (target.map f) strict
  | .subclass c target strict => .subclass (f c) (target.map f) strict

theorem map_map (f g : Class → Class) (r : Request) : (r.map g).map f = r.map (f ∘ g) := by
  cases r <;> simp [map, Ty.map_map]

/--
The query about `c` in the place of the classes that are gaps.
-/
def fill (r : Request) (gap : Class → Bool) (c : Class) : Request :=
  r.map fun d => if gap d then c else d

theorem fill_map_settled {ctx : Context} {c d : Class} (h : ctx.settled c = ctx.settled d)
    (r : Request) (gap : Class → Bool)
    : (r.fill gap c).map ctx.settled = (r.fill gap d).map ctx.settled := by
  have hfill : (ctx.settled ∘ fun e => if gap e then c else e)
      = ctx.settled ∘ fun e => if gap e then d else e := by
    funext e
    simp only [Function.comp_apply]
    split
    . exact h
    . rfl
  unfold fill
  rw [map_map, map_map, hfill]

theorem recovered_settled (ctx : Context) (c : Class) (substitute : Ty Class → Ty Class)
    : (recovered ctx c.erase fun t => (substitute t).erase).map ctx.settled
        =
      (recovered ctx (ctx.settled c) substitute).map ctx.settled := by
  have hsame := (ctx.alike_erase c).trans (ctx.alike_settled c).symm
  have hself : (Ty.cls c.erase).map ctx.settled = (Ty.cls (ctx.settled c)).map ctx.settled := by
    simp [Ty.map]
  unfold recovered Class.isAnonymous Class.isGlobal
  rw [hsame.flags_eq, hsame.name_eq, c.erase_isDocTableRef, ctx.settled_isDocTableRef]
  split
  . exact hself
  . cases ctx.aliasAt? (ctx.settled c).name with
    | none => exact hself
    | some a => exact Ty.map_settled_erase ctx _

/--
What a query amounts to is told by its classes as they are once the index has been asked.
-/
theorem meaning_settled (ctx : Context) (r : Request) (limits : Limits)
    : ((r.erase.meaning ctx).run (.new limits)).1.settled ctx
        =
      (((r.map ctx.settled).meaning ctx).run (.new limits)).1.settled ctx := by
  have hsame : ∀ c : Class, ctx.Alike c.erase (ctx.settled c) :=
    fun c => (ctx.alike_erase c).trans (ctx.alike_settled c).symm
  have hsettled : ∀ c : Class, ctx.settled c.erase = ctx.settled (ctx.settled c) := by simp
  have hpaired : ∀ t : Ty Class, t.erase.Paired ctx.Alike (t.map ctx.settled) :=
    fun t => Ty.paired_map fun c _ => hsame c
  have hnew : Guard.Alike limits ([] : List (String × String)) (.new limits) (.new limits) :=
    ⟨Guard.ready_new limits, Guard.ready_new limits, nofun⟩
  cases r with
  | ancestors c => simp [erase, map, meaning, (hsame c).lineage_eq]
  | interfaces c goesOn => simp [erase, map, meaning, (hsame c).interfaceForest_eq]
  | ownMembers c => simp [erase, map, meaning, (hsame c).ownMemberList_eq]
  | members c deep =>
    exact congrArg Answer.memberPairs ((hsame c).memberPairs_map_eq (hsettled c) deep)
  | visibleMembers c viewer =>
    apply congrArg Answer.memberPairs
    apply (hsame c).visiblePairs_map_eq
    . exact hsettled c
    . exact hsettled viewer
    . exact fun d => (ctx.alike_settled d).name_eq
    . exact fun d => (ctx.alike_settled d).flags_eq
  | findMember c name => simp [erase, map, meaning, (hsame c).member?_eq]
  | keyType c key => simp [erase, map, meaning, (hsame c).keyMember?_eq]
  | alternateNames c => simp [erase, map, meaning, (hsame c).otherNames_eq]
  | recoverAlias c substitution =>
    exact congrArg (Answer.type ∘ some) (recovered_settled ctx c substitution.apply)
  | subtype source target strict =>
    have hagree := Guarded.isSubtype_agree strict (hpaired source) (hpaired target) _ _ hnew
    exact congrArg Answer.verdict hagree.1
  | subclass c target strict =>
    have hagree := Guarded.isSubclass_agree strict (hpaired target) (hsame c) _ _ hnew
    exact congrArg Answer.verdict hagree.1

end Request

/--
Make a class, and ask a query about it.
-/
def Request.runOn (r : Request) (gap : Class → Bool) (ctx : Context) (made : Query Class) :
    Query Answer := do
  (r.fill gap (← made)).run ctx

namespace Session

variable {ctx : Context} [ctx.Quiet] {limits : Limits} {history : List Request}
  {pool : List Class} {s : QueryState}

theorem answer_settled (h : Session ctx limits history pool s) {r : Request} (hr : r.Over pool)
    : ((r.run ctx).run s).1.settled ctx
        =
      (((r.map ctx.settled).meaning ctx).run (.new limits)).1.settled ctx := by
  rw [← Answer.settled_erase, h.answer_erase hr, Answer.settled_erase, Request.meaning_settled]

theorem runOn_settled (h : Session ctx limits history pool s) {r : Request} {gap : Class → Bool}
    (hr : ∀ c, (r.fill gap c).Over (pool ++ [c])) (m : Maker) {made : Query Class}
    (hm : m.run ctx = do return .cls (← made)) {c : Class}
    (hc : ctx.settled (made.run s).1 = ctx.settled c)
    : ((r.runOn gap ctx made).run s).1.settled ctx
        =
      ((((r.fill gap c).map ctx.settled).meaning ctx).run (.new limits)).1.settled ctx := by
  have hmake := Session.make m h
  rw [hm] at hmake
  have hmade : Session ctx limits history (pool ++ [(made.run s).1]) (made.run s).2 := hmake
  rw [← Request.fill_map_settled hc]
  exact hmade.answer_settled (hr _)

end Session

theorem Context.declaration?_of_findClass (ctx : Context) {name : String} {d : ClassDecl}
    (h : ctx.index.findClass name = .ok (some d))
    : d.name = name ∧ ctx.declaration? name = some d.header := by
  have hfind := ctx.findClass_eq name
  rw [h] at hfind
  rcases Option.map_eq_some_iff.1 hfind.symm with ⟨header, hheader, rfl⟩
  exact ⟨rfl, hheader⟩

theorem Context.settled_eq_ofDecl {ctx : Context} {d : ClassDecl}
    (hd : ctx.declaration? d.name = some d.header) {origin : Origin}
    (hcell : origin.cell?.isSome = true)
    : ctx.settled { name := d.name, varName := d.name, flags := .empty, origin } = .ofDecl d := by
  unfold settled Class.seenAs knownHeader
  rw [if_pos hcell, if_pos hcell, hd]
  rfl

theorem references_interchangeable (index : Index) (options : Options) (scope : Scope)
    (limits : Limits) {history : List Request} {pool : List Class} {s : QueryState}
    (h : Session { index, options, scope } limits history pool s) {name : String} {d : ClassDecl}
    (hd : index.findClass name = .ok (some d)) (r : Request) (gap : Class → Bool)
    (hr : ∀ c, (r.fill gap c).Over (pool ++ [c]))
    : let ctx : Context := { index, options, scope }
      let asked (made : Query Class) : Answer := ((r.runOn gap ctx made).run s).1.settled ctx
      ∃ declared, ((ctx.resolve name).run s).1 = some declared ∧
        asked (Class.ofName name) = asked (pure declared) ∧
        (Identity.parseDocTable? name = none →
          (∃ bytes decoded, ((Stub.encode declared).run s).1 = .ok bytes ∧
            Stub.decode bytes = .ok decoded ∧ asked decoded = asked (pure declared)) ∨
          ∃ n, some n ∈ [some name, d.header.superName, d.header.aliasName] ∧
            UInt32.size ≤ n.utf8ByteSize ∧
            ((Stub.encode declared).run s).1 = .error (.nameTooLong n.utf8ByteSize)) := by
  intro ctx asked
  rcases ctx.declaration?_of_findClass hd with ⟨rfl, hheader⟩
  have hresolve : ((ctx.resolve d.name).run s).1 = ctx.declared? d.name :=
    (Context.resolve_finds d.name s).1
  have hdeclared : asked (pure (.ofDecl d)) = _ :=
    h.runOn_settled hr (.declaration d) rfl (c := .ofDecl d) rfl
  refine ⟨.ofDecl d, ?_, ?_, ?_⟩
  . rw [hresolve, Context.declared?, hheader]
    rfl
  . have hsettled : ctx.settled ((Class.ofName d.name).run s).1 = ctx.settled (.ofDecl d) :=
      Context.settled_eq_ofDecl hheader rfl
    exact (h.runOn_settled hr (.reference d.name) rfl hsettled).trans hdeclared.symm
  . intro hname
    let stub : Stub := {
      className := some d.name, varName := some d.name, superName := d.header.superName,
      aliasName := d.header.aliasName, flags := .empty }
    have hencode : ((Stub.encode (.ofDecl d)).run s).1 = stub.toBytes := rfl
    rw [hencode]
    -- The only thing that keeps a stub from being written is a name that is too long for it.
    rcases stub.toBytes_persists with ⟨bytes, hbytes, hread⟩ | ⟨n, hn, hlength, herror⟩
    . refine .inl ⟨bytes, _, hbytes, Stub.decode_eq_toClass hread, ?_⟩
      have hsettled : ctx.settled ((Class.ofFields d.name (some d.name) d.header.superName
          d.header.aliasName .empty).run s).1 = ctx.settled (.ofDecl d) := by
        unfold Class.ofFields
        rw [hname]
        exact Context.settled_eq_ofDecl hheader rfl
      exact (h.runOn_settled hr (.persisted ..) rfl hsettled).trans hdeclared.symm
    . refine .inr ⟨n, ?_, hlength, herror⟩
      simpa [Stub.names, stub] using hn

theorem references_interchangeable_puppy
    : let ctx : Context := { index := .pets }
      let pet := Class.referenceAt "Pet" 0
      let s := (((Maker.reference "Pet").run ctx).run (.fresh .standard)).2
      let hole := Class.reference "?"
      let r := Request.subtype (.array (.cls hole)) (.array (.union [.cls pet, .nil])) true
      let asked (made : Query Class) : Answer := ((r.runOn (· == hole) ctx made).run s).1.settled ctx
      ∃ declared bytes decoded, ((ctx.resolve "Puppy").run s).1 = some declared ∧
        ((Stub.encode declared).run s).1 = .ok bytes ∧ Stub.decode bytes = .ok decoded ∧
        asked (Class.ofName "Puppy") = asked (pure declared) ∧
        asked decoded = asked (pure declared) := by
  intro ctx pet s hole r asked
  have hmade : Session ctx .standard [] [pet] s := .make (.reference "Pet") .start
  have hfind : Index.pets.findClass "Puppy" = .ok (some { name := "Puppy", header := {
      superName := some "Dog", interfaceNames := ["Pet"], aliasName := some "Whelp" } }) :=
    rfl
  have hr : ∀ c, (r.fill (· == hole) c).Over ([pet] ++ [c]) := by
    intro c
    have hpet : (pet == hole) = false := by decide
    simp [r, Request.fill, Request.map, Request.Over, Request.mentions, Ty.map, Ty.classes, hpet]
  have hname : Identity.parseDocTable? "Puppy" = none := by decide +kernel
  rcases references_interchangeable .pets {} .project .standard hmade hfind r (· == hole) hr with
    ⟨declared, hresolve, hlazy, hdecoded⟩
  rcases hdecoded hname with ⟨bytes, decoded, hencode, hdecode, hsame⟩ | ⟨n, hn, hlength, _⟩
  . exact ⟨declared, bytes, decoded, hresolve, hencode, hdecode, hlazy, hsame⟩
  . have hshort : ∀ n ∈ ["Puppy", "Dog", "Whelp"], n.utf8ByteSize < UInt32.size := by decide
    have hlt := hshort n (by simpa using hn)
    omega

end LuaClasses
