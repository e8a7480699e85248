import LuaClasses.Proofs.Registration

/-!
This module contains what the index of a project answers, in terms of the project. A later class
declaration or alias of a name takes the place of an earlier one, while members of a name are added
to those before them, from whichever part of the project they come.
-/

namespace LuaClasses

namespace Change

/--
The member that a change records under a name.
-/
def memberUnder? (name : String) : Change → Option Member
  | .addMember owner m => if owner = name then some { m with owner := name } else none
  | _ => none

def alias? : Change → Option AliasDecl
  | .addAlias a => some a
  | _ => none

def fault? : Change → Option Fault
  | .markFault _ fault => some fault
  | _ => none

/--
The last alias of a name.
-/
def lastAlias? (as : List AliasDecl) (name : String) : Option AliasDecl :=
  (as.filter (·.name == name)).getLast?

section Step

variable (i : Index) (c : Change) (name : String)

theorem members_apply
    : (c.apply i).members.getD name []
        =
      i.members.getD name [] ++ (c.memberUnder? name).toList := by
  cases c with
  | register r => rcases r with ⟨d, _ | file⟩ <;> exact (List.append_nil _).symm
  | addAlias a | markFault other fault => exact (List.append_nil _).symm
  | addMember owner m =>
    simp only [apply, Index.addMember, memberUnder?, Std.TreeMap.getD_insert,
      Std.LawfulEqOrd.compare_eq_iff_eq]
    split
    . next h =>
      subst h
      rfl
    . exact (List.append_nil _).symm

theorem aliases_apply
    : (c.apply i).aliases[name]?
        =
      ((lastAlias? c.alias?.toList name).map (·.type)).or i.aliases[name]? := by
  cases c with
  | register r => rcases r with ⟨d, _ | file⟩ <;> rfl
  | addMember owner m | markFault other fault => rfl
  | addAlias a =>
    simp only [apply, Index.addAlias, Std.TreeMap.getElem?_insert,
      Std.LawfulEqOrd.compare_eq_iff_eq, alias?, lastAlias?]
    split
    . next h => simp [h]
    . next h => simp [h]

theorem faults_apply (h : c.fault? = none) : (c.apply i).faults = i.faults := by
  cases c with
  | register r => rcases r with ⟨d, _ | file⟩ <;> rfl
  | addMember owner m | addAlias a => rfl
  | markFault other fault => cases h

end Step

section Run

variable (i : Index) (cs : List Change) (name : String)

theorem members_foldl
    : (cs.foldl apply i).members.getD name []
        =
      i.members.getD name [] ++ cs.filterMap (memberUnder? name) := by
  induction cs generalizing i with
  | nil => exact (List.append_nil _).symm
  | cons c rest ih =>
    rw [List.foldl_cons, ih, members_apply, List.append_assoc, List.filterMap_cons]
    cases c.memberUnder? name <;> rfl

theorem aliases_foldl
    : (cs.foldl apply i).aliases[name]?
        =
      ((lastAlias? (cs.filterMap alias?) name).map (·.type)).or i.aliases[name]? := by
  induction cs generalizing i with
  | nil => rfl
  | cons c rest ih =>
    have hcons : (c :: rest).filterMap alias? = c.alias?.toList ++ rest.filterMap alias? := by
      rw [List.filterMap_cons]
      cases c.alias? <;> rfl
    rw [List.foldl_cons, ih, aliases_apply, hcons, ← Option.or_assoc, ← Option.map_or]
    unfold lastAlias?
    rw [List.filter_append, List.getLast?_append]

theorem faults_foldl (h : ∀ c ∈ cs, c.fault? = none) : (cs.foldl apply i).faults = i.faults := by
  induction cs generalizing i with
  | nil => rfl
  | cons c rest ih =>
    rw [List.foldl_cons, ih _ fun d hd => h d (List.mem_cons_of_mem c hd),
      faults_apply i c (h c List.mem_cons_self)]

end Run

end Change

namespace Project

variable (p : Project) (name : String)

/--
The class entries of a name, in the order of the project.
-/
def entriesOf : List ClassEntry :=
  p.classes.filter (·.decl.name == name)

/--
The members that the project lists under a name: those of its class entries, then those of the table
of members.
-/
def membersUnder : List Member :=
  (p.entriesOf name).flatMap (·.members) ++ (p.members.lookup name).getD []

theorem filterMap_memberUnder? (owner : String) (ms : List Member)
    : (ms.map (Change.addMember owner)).filterMap (Change.memberUnder? name)
        =
      if owner == name then ms.map ({ · with owner := name }) else [] := by
  rw [List.filterMap_map]
  split
  . next h =>
    have hsome : Change.memberUnder? name ∘ Change.addMember owner
        = some ∘ ({ · with owner := name }) := by
      funext m
      exact if_pos (beq_iff_eq.1 h)
    rw [hsome, List.filterMap_eq_map]
  . next h => simp_all [Change.memberUnder?]

theorem flatMap_ite (test : α → Bool) (f : α → List β) (l : List α)
    : (l.flatMap fun a => if test a then f a else []) = (l.filter test).flatMap f := by
  induction l with
  | nil => rfl
  | cons a rest ih =>
    rw [List.flatMap_cons, ih, List.filter_cons]
    cases test a <;> simp

theorem flatMap_rows_eq_lookup {table : MemberTable} (howners : (table.map Prod.fst).Nodup)
    : (table.filter (·.1 == name)).flatMap (·.2) = (table.lookup name).getD [] := by
  induction table with
  | nil => rfl
  | cons row rest ih =>
    rcases row with ⟨owner, ms⟩
    rcases List.nodup_cons.1 howners with ⟨hnew, hrest⟩
    rw [List.filter_cons]
    cases hname : owner == name with
    | false =>
      rw [List.lookup_cons, BEq.comm, hname]
      exact ih hrest
    | true =>
      have habsent : rest.filter (·.1 == name) = [] := by
        rw [List.filter_eq_nil_iff]
        intro row hrow hsame
        have hmem := List.mem_map_of_mem (f := Prod.fst) hrow
        rw [beq_iff_eq.1 hsame, ← beq_iff_eq.1 hname] at hmem
        exact hnew hmem
      rw [List.lookup_cons, BEq.comm, hname]
      simp [habsent]

theorem filterMap_changes_memberUnder? (howners : (p.members.map Prod.fst).Nodup)
    : p.changes.filterMap (Change.memberUnder? name)
        =
      (p.membersUnder name).map ({ · with owner := name }) := by
  have haliases : (p.aliases.map Change.addAlias).filterMap (Change.memberUnder? name) = [] := by
    simp [Change.memberUnder?]
  unfold changes membersUnder entriesOf
  rw [List.filterMap_append, List.filterMap_append, haliases, List.append_nil,
    List.filterMap_flatMap, List.filterMap_flatMap, List.map_append,
    ← flatMap_rows_eq_lookup name howners, List.map_flatMap, List.map_flatMap]
  simp only [List.filterMap_cons, Change.memberUnder?, filterMap_memberUnder?, flatMap_ite]

theorem filterMap_changes_alias? : p.changes.filterMap Change.alias? = p.aliases := by
  have hentries : (p.classes.flatMap fun e => Change.register ⟨e.decl, e.file⟩ ::
      e.members.map (.addMember e.decl.name)).filterMap Change.alias? = [] := by
    rw [List.filterMap_flatMap, List.flatMap_eq_nil_iff]
    intro e _
    simp [List.filterMap_cons, Change.alias?]
  have haliases : (p.aliases.map Change.addAlias).filterMap Change.alias? = p.aliases := by
    simp [Change.alias?, Function.comp_def]
  unfold changes
  rw [List.filterMap_append, List.filterMap_append, hentries, haliases, List.filterMap_flatMap,
    List.flatMap_eq_nil_iff.2]
  . rfl
  . intro row _
    simp [Change.alias?]

theorem fault?_of_mem_changes {c : Change} (h : c ∈ p.changes) : c.fault? = none := by
  cases c with
  | register r | addMember owner m | addAlias a => rfl
  | markFault other fault => simp [changes] at h

end Project

namespace Index

variable (p : Project) (name : String)

theorem lookUp_ofProject (answer : α) : (ofProject p).lookUp name answer = .ok answer := by
  have hfaults : (ofProject p).faults = ∅ := by
    rw [ofProject_eq, Change.faults_foldl _ _ fun _ => p.fault?_of_mem_changes]
  simp [lookUp, hfaults]

theorem inForce?_registrations
    : Registration.inForce? p.registrations name
        =
      (p.entriesOf name).getLast?.map fun e => ⟨e.decl, e.file⟩ := by
  unfold Registration.inForce? Registration.named Project.registrations Project.entriesOf
  rw [List.filter_map, List.getLast?_map]
  rfl

theorem findClass_ofProject
    : (ofProject p).findClass name = .ok ((p.entriesOf name).getLast?.map (·.decl)) := by
  rw [findClass, lookUp_ofProject, (ofProject_reflects p).classes_eq, inForce?_registrations]
  cases hlast : (p.entriesOf name).getLast? with
  | none => rfl
  | some e =>
    have hname : e.decl.name = name :=
      beq_iff_eq.1 (List.mem_filter.1 (List.mem_of_getLast? hlast)).2
    simp [← hname]

theorem membersOf_ofProject (howners : (p.members.map Prod.fst).Nodup)
    : (ofProject p).membersOf name
        =
      .ok ((p.membersUnder name).map ({ · with owner := name })) := by
  rw [membersOf, lookUp_ofProject, ofProject_eq, Change.members_foldl,
    p.filterMap_changes_memberUnder? name howners]
  rfl

theorem findAlias_ofProject
    : (ofProject p).findAlias name = .ok ((p.aliases.filter (·.name == name)).getLast?) := by
  rw [findAlias, lookUp_ofProject, ofProject_eq, Change.aliases_foldl, p.filterMap_changes_alias?,
    Change.lastAlias?]
  cases hlast : (p.aliases.filter (·.name == name)).getLast? with
  | none => rfl
  | some a =>
    have hname : a.name = name :=
      beq_iff_eq.1 (List.mem_filter.1 (List.mem_of_getLast? hlast)).2
    simp [← hname]

theorem classNames_increasing (i : Index) : i.classNames.Pairwise (· < ·) := by
  apply (Std.TreeMap.ordered_keys (t := i.classes)).imp
  intro a b h
  exact compareOfLessAndEq_eq_lt.1 h

theorem mem_classNames_ofProject
    : name ∈ (ofProject p).classNames ↔ ∃ e ∈ p.classes, e.decl.name = name := by
  unfold classNames
  rw [Std.TreeMap.mem_keys, Std.TreeMap.mem_iff_isSome_getElem?,
    (ofProject_reflects p).classes_eq, inForce?_registrations]
  simp [Project.entriesOf]

end Index

theorem ofProject_lookups (p : Project) (howners : (p.members.map Prod.fst).Nodup) (name : String)
    : let index := Index.ofProject p
      index.findClass name = .ok ((p.entriesOf name).getLast?.map (·.decl)) ∧
      index.membersOf name = .ok ((p.membersUnder name).map fun m => { m with owner := name }) ∧
      index.findAlias name = .ok ((p.aliases.filter (·.name == name)).getLast?) ∧
      index.classNames.Pairwise (· < ·) ∧
      (name ∈ index.classNames ↔ ∃ e ∈ p.classes, e.decl.name = name) :=
  ⟨Index.findClass_ofProject p name, Index.membersOf_ofProject p name howners,
    Index.findAlias_ofProject p name, Index.classNames_increasing _,
    Index.mem_classNames_ofProject p name⟩

/--
A project with two declarations of one class and two aliases of one name. The members of the class
come from three places, and one of another class claims to be owned by it.
-/
def Project.patchwork : Project where
  classes := [
    { decl := .ofName "Dog", members := [.new "name" .pub (.named "string")] },
    { decl := .ofName "Cat"
      members := [{ name := some "name", owner := "Dog", visibility := .priv, type := .unknown }] },
    { decl := { name := "Dog", header := { superName := some "Animal" } }
      members := [.new "name" .prot (.named "nil"), .unnamed .unknown]
      file := some "dog.lua" }]
  members := [("Whelp", [.new "age" .pub (.named "number")]), ("Dog", [.new "age" .pub .unknown])]
  aliases := [{ name := "Id", type := .named "number" }, { name := "Id", type := .named "string" }]

theorem ofProject_lookups_patchwork
    : let index := Index.ofProject .patchwork
      (Project.patchwork.members.map Prod.fst).Nodup ∧
      index.findClass "Dog" = .ok (some { name := "Dog", header := { superName := some "Animal" } }) ∧
      index.membersOf "Dog" = .ok [
        { name := some "name", owner := "Dog", visibility := .pub, type := .named "string" },
        { name := some "name", owner := "Dog", visibility := .prot, type := .named "nil" },
        { name := none, owner := "Dog", visibility := .pub, type := .unknown },
        { name := some "age", owner := "Dog", visibility := .pub, type := .unknown }] ∧
      index.membersOf "Cat" = .ok [
        { name := some "name", owner := "Cat", visibility := .priv, type := .unknown }] ∧
      index.findAlias "Id" = .ok (some { name := "Id", type := .named "string" }) ∧
      index.classNames.Pairwise (· < ·) ∧ "Dog" ∈ index.classNames ∧ "Whelp" ∉ index.classNames := by
  intro index
  have howners : (Project.patchwork.members.map Prod.fst).Nodup := by decide
  have hdog := ofProject_lookups .patchwork howners "Dog"
  have hcat := ofProject_lookups .patchwork howners "Cat"
  have hid := ofProject_lookups .patchwork howners "Id"
  have hwhelp := ofProject_lookups .patchwork howners "Whelp"
  refine ⟨howners, hdog.1, hdog.2.1, hcat.2.1, hid.2.2.1, hdog.2.2.2.1,
    hdog.2.2.2.2.2 (by decide), ?_⟩
  rw [hwhelp.2.2.2.2]
  decide

end LuaClasses
