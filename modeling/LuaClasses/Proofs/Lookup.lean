import LuaClasses.Proofs.Session

/-!
This module contains the agreement of the two ways to learn about members: looking up one of a name,
and listing them all. The look-up stops at the first hit, on a walk that treats a stop and a cycle
differently; still it finds the first member of that name in the list.
-/

namespace LuaClasses

namespace Context

variable (ctx : Context) (c : Class) (name : String)

theorem memberAt?_eq_find? (owner : String)
    : ctx.memberAt? owner name = (ctx.membersAt owner).find? (·.isNamed name) := by
  unfold memberAt? membersAt Index.findMember Index.membersOf Index.lookUp
  cases ctx.index.faults[owner]? with
  | some fault => rfl
  | none => rfl

theorem ownMember?_eq_find?
    : ctx.ownMember? c name = (ctx.ownMemberList c).find? (·.isNamed name) := by
  unfold ownMember? ownMemberList
  simp only [memberAt?_eq_find?]
  rw [List.find?_append, List.find?_flatMap]
  cases c.origin.fields? with
  | some fields => rfl
  | none => rfl

/--
The members that a class has from its ancestors, each with the ancestor that has it.
-/
def inheritedPairs : List (Class × Member) :=
  (ctx.lineage c).flatMap fun a => (ctx.ownMemberList a).map (a, ·)

theorem findSome?_lineage_eq_find?
    : (ctx.lineage c).findSome? (ctx.ownMember? · name)
        =
      ((ctx.inheritedPairs c).map (·.2)).find? (·.isNamed name) := by
  simp only [ownMember?_eq_find?, inheritedPairs, List.map_flatMap, List.map_map]
  rw [List.find?_flatMap]
  simp [Function.comp_def]

theorem member?_eq_find?
    : ctx.member? c name
        =
      ((ctx.memberPairs c true).map (·.2)).find? (·.isNamed name) := by
  unfold member?
  rw [findSome?_lineage_eq_find?, ownMember?_eq_find?]
  simp [memberPairs, memberPairsAs, inheritedPairs, Function.comp_def]

end Context

open Query

section Session

variable {ctx : Context} [ctx.Quiet] {limits : Limits} {history : List Request} {pool : List Class}
  {s : QueryState} {c : Class}

theorem Session.ownMembers_eq (h : Session ctx limits history pool s) (hc : c ∈ pool)
    : ((ctx.ownMembers c).run s).1 = ctx.ownMemberList c :=
  h.reads_eq hc (Context.ownMembers_reads c) (ctx.alike_settled c).ownMemberList_eq

theorem Session.inherited_eq (h : Session ctx limits history pool s) (hc : c ∈ pool)
    : (((ctx.ancestors c).run s).1.flatMap fun a => ((ctx.ownMembers a).run s).1.map (a, ·))
        =
      ctx.inheritedPairs c := by
  have hancestors : ((ctx.ancestors c).run s).1 = ctx.lineage c :=
    h.reads_eq hc (Context.ancestors_reads c) (ctx.alike_settled c).lineage_eq
  have hown : ∀ a ∈ ctx.lineage c, ((ctx.ownMembers a).run s).1.map (a, ·)
      = (ctx.ownMemberList a).map (a, ·) := by
    intro a ha
    -- An ancestor is declared, so it need not be one of the classes of the session.
    have hcell := Context.cell?_eq_none_of_mem_lineage ha
    rw [((Context.ownMembers_reads a).finds hcell s).1]
  rw [hancestors, Context.inheritedPairs, List.flatMap_def, List.flatMap_def,
    List.map_congr_left hown]

theorem Session.members_eq (h : Session ctx limits history pool s) (hc : c ∈ pool)
    : ((ctx.members c true).run s).1
        =
      ((ctx.ownMembers c).run s).1.map (c, ·) ++
        ((ctx.ancestors c).run s).1.flatMap fun a => ((ctx.ownMembers a).run s).1.map (a, ·) := by
  rw [h.ownMembers_eq hc, h.inherited_eq hc]
  exact h.reads_eq hc (Context.members_reads c true)
    ((ctx.alike_settled c).memberPairsAs_eq c true)

end Session

theorem find_eq_first_listed (index : Index) (options : Options) (scope : Scope) (limits : Limits)
    {history : List Request} {pool : List Class} {s : QueryState}
    (h : Session { index, options, scope } limits history pool s) {c : Class} (hc : c ∈ pool)
    (name : String)
    : let ctx : Context := { index, options, scope }
      let own := ((ctx.ownMembers c).run s).1
      let inherited := ((ctx.ancestors c).run s).1.flatMap fun a =>
        ((ctx.ownMembers a).run s).1.map (a, ·)
      let listed := ((ctx.members c true).run s).1
      listed = own.map (c, ·) ++ inherited ∧
      ((ctx.findMemberOf c name).run s).1 = (listed.map (·.2)).find? (·.isNamed name) ∧
      ((ctx.findOwnMember c name).run s).1 = own.find? (·.isNamed name) ∧
      ((ctx.findInheritedMember c name).run s).1
        =
      (inherited.map (·.2)).find? (·.isNamed name) := by
  intro ctx own inherited listed
  have hlisted : listed = own.map (c, ·) ++ inherited := h.members_eq hc
  have hown : own = ctx.ownMemberList c := h.ownMembers_eq hc
  have hinherited : inherited = ctx.inheritedPairs c := h.inherited_eq hc
  refine ⟨hlisted, ?_, ?_, ?_⟩
  . have hpairs : listed = ctx.memberPairs c true := by
      rw [hlisted, hown, hinherited]
      rfl
    rw [hpairs, ← Context.member?_eq_find?]
    exact h.reads_eq hc (Context.findMemberOf_reads c name) ((ctx.alike_settled c).member?_eq name)
  . rw [hown, ← Context.ownMember?_eq_find?]
    exact h.reads_eq hc (Context.findOwnMember_reads c name)
      ((ctx.alike_settled c).ownMember?_eq name)
  . rw [hinherited, ← Context.findSome?_lineage_eq_find?]
    apply h.reads_eq hc (Context.findInheritedMember_reads c name)
    rw [(ctx.alike_settled c).lineage_eq]

/--
A class with an alternate name, two superclasses and an interface that extends one of them. The
members under the alternate name cannot be looked up.
-/
def Index.pets : Index :=
  let i : Index := {}
  let i := i.declare { name := "Puppy", header := {
    superName := some "Dog", interfaceNames := ["Pet"], aliasName := some "Whelp" } }
  let i := i.declare { name := "Dog", header := { superName := some "Animal" } }
  let i := i.declare { name := "Animal", header := {} }
  let i := i.declare { name := "Pet", header := {
    interfaceNames := ["Animal"], isInterface := true } }
  let i := i.addMember "Whelp" (.new "owner" .pub (.named "string"))
  let i := i.addMember "Animal" (.new "legs" .pub (.named "number"))
  let i := i.addMember "Pet" (.new "legs" .pub (.named "string"))
  let i := i.addMember "Pet" (.new "owner" .pub (.named "table"))
  i.markFault "Whelp" .unavailable

theorem find_eq_first_listed_puppy
    : let ctx : Context := { index := .pets }
      let puppy := Class.referenceAt "Puppy" 0
      let s := (((Maker.reference "Puppy").run ctx).run (.fresh .standard)).2
      let listed := ((ctx.members puppy true).run s).1.map (·.2)
      ((ctx.findMemberOf puppy "owner").run s).1 = listed.find? (·.isNamed "owner") ∧
      (listed.find? (·.isNamed "owner")).map (·.owner) = some "Pet" := by
  intro ctx puppy s listed
  have hmade : Session ctx .standard [] [puppy] s := .make (.reference "Puppy") .start
  have hfind := find_eq_first_listed .pets {} .project .standard hmade List.mem_cons_self "owner"
  exact ⟨hfind.2.1, by decide +kernel⟩

end LuaClasses
