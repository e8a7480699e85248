import LuaClasses.Proofs.Loading
import LuaClasses.Proofs.Members
import Mathlib.Data.List.Nodup
import Mathlib.Data.List.Perm.Subperm

/-!
This module contains what it takes for a class to list a member twice. Members of a class stand
under its own name and under its alternate names, so one is listed twice if two of these names are
the same. The name that a declaration gives is compared with the name of the class, but the name of
the global variable is not compared with either of them.
-/

namespace LuaClasses

theorem Identity.globalType_eq_self_iff (name : String)
    : globalType name = name ↔ name = globalRoot := by
  unfold globalType
  split
  . next h => simp [h]
  . next h =>
    refine ⟨?_, fun heq => absurd heq h⟩
    intro heq
    have hlength := congrArg String.length heq
    simp at hlength

/--
Whether the name of the global variable of a class is one that the class goes by already, if its
declaration gives it the name `other?`.
-/
def Class.isNamedTwice (c : Class) (options : Options) (other? : Option String) : Bool :=
  options.globalNamesAsTypes && !c.isAnonymous && !c.isGlobal && other?.any fun other =>
    other != c.name && (c.name == Identity.globalRoot || other == "$" ++ c.name)

namespace Context

theorem nodup_names (ctx : Context) {c : Class} {other? : Option String}
    (h : c.isNamedTwice ctx.options other? = false)
    : (c.name :: ctx.namesBeside c other?).Nodup := by
  unfold namesBeside
  cases other? with
  | none => simp
  | some other =>
    by_cases hsame : other = c.name
    . simp [hsame]
    . cases hplain : c.isAnonymous || c.isGlobal || !ctx.options.globalNamesAsTypes with
      | true => simp [hsame, Ne.symm hsame]
      | false =>
        have hroot : c.name ≠ Identity.globalRoot := by
          intro hroot
          simp_all [Class.isNamedTwice]
        have hglobal : other ≠ Identity.globalType c.name := by
          unfold Identity.globalType
          rw [if_neg hroot]
          intro hglobal
          simp_all [Class.isNamedTwice]
        have hself := mt (Identity.globalType_eq_self_iff c.name).1 hroot
        simp [hsame, Ne.symm hsame, hglobal, Ne.symm hself]

theorem names_of_isNamedTwice (ctx : Context) {c : Class} {other? : Option String}
    (h : c.isNamedTwice ctx.options other? = true)
    : ∃ other, other ≠ c.name ∧ ctx.namesBeside c other? = [other, Identity.globalType c.name] ∧
      (Identity.globalType c.name = c.name ∨ Identity.globalType c.name = other) := by
  unfold Class.isNamedTwice at h
  cases other? with
  | none => simp at h
  | some other =>
    simp only [Option.any_some, Bool.and_eq_true, Bool.not_eq_true', bne_iff_ne, Bool.or_eq_true,
      beq_iff_eq] at h
    rcases h with ⟨⟨⟨hglobals, hanonymous⟩, hglobal⟩, hother, hname⟩
    refine ⟨other, hother, ?_, ?_⟩
    . simp [namesBeside, hother, hanonymous, hglobal, hglobals]
    . by_cases hroot : c.name = Identity.globalRoot
      . exact .inl ((Identity.globalType_eq_self_iff c.name).2 hroot)
      . unfold Identity.globalType
        rw [if_neg hroot]
        exact .inr (hname.resolve_left hroot).symm

/--
The only name that a class goes by twice is that of its global variable.
-/
theorem two_le_count_names (ctx : Context) (c : Class) (other? : Option String) (name : String)
    : 2 ≤ (c.name :: ctx.namesBeside c other?).count name
        ↔
      c.isNamedTwice ctx.options other? = true ∧ name = Identity.globalType c.name := by
  cases htwice : c.isNamedTwice ctx.options other? with
  | false =>
    have hcount := List.nodup_iff_count_le_one.1 (ctx.nodup_names htwice) name
    simp only [Bool.false_eq_true, false_and, iff_false]
    omega
  | true =>
    rcases ctx.names_of_isNamedTwice htwice with ⟨other, hother, hnames, hglobal⟩
    rw [hnames]
    simp only [List.count_cons, List.count_nil, beq_iff_eq, true_and]
    rcases hglobal with hglobal | hglobal <;> grind

end Context

section Lists

variable {f g : String → List α} {owner : α → String}

theorem count_flatMap_of_owner [DecidableEq α] (hf : ∀ name, ∀ a ∈ f name, owner a = name)
    (names : List String) (a : α)
    : (names.flatMap f).count a = names.count (owner a) * (f (owner a)).count a := by
  induction names with
  | nil => simp
  | cons name rest ih =>
    rw [List.flatMap_cons, List.count_append, ih, List.count_cons]
    by_cases hname : name = owner a
    . simp [hname, Nat.add_mul, Nat.add_comm]
    . have habsent : (f name).count a = 0 :=
        List.count_eq_zero.2 fun ha => hname (hf name a ha).symm
      simp [hname, habsent]

/--
Where each name has a list of its own, some of which cannot be read, a concatenation of lists has no
more than all the lists together, unless it reads one of them twice.
-/
theorem subperm_flatMap_iff (hg : ∀ name, ∀ a ∈ g name, owner a = name)
    (hf : ∀ name, f name = [] ∨ f name = g name) {keys : List String} (hkeys : keys.Nodup)
    (hdomain : ∀ name, name ∉ keys → g name = []) (names : List String)
    : (names.flatMap f).Subperm (keys.flatMap g) ↔ ∀ name, 2 ≤ names.count name → f name = [] := by
  classical
  have hf' : ∀ name, ∀ a ∈ f name, owner a = name := by
    intro name a ha
    rcases hf name with hnil | heq
    . simp [hnil] at ha
    . exact hg name a (heq ▸ ha)
  rw [List.subperm_iff_count]
  simp only [count_flatMap_of_owner hf', count_flatMap_of_owner hg]
  constructor
  . intro hcount name htwice
    rcases hf name with hnil | heq
    . exact hnil
    . by_contra hne
      rcases List.exists_mem_of_ne_nil _ hne with ⟨a, ha⟩
      have hle := hcount a
      have hpos : 0 < (g name).count a := List.count_pos_iff.2 (heq ▸ ha)
      have hone := List.nodup_iff_count_le_one.1 hkeys name
      rw [hf' name a ha, heq] at hle
      have hle' := Nat.le_of_mul_le_mul_right hle hpos
      omega
  . intro htwice a
    rcases hf (owner a) with hnil | heq
    . simp [hnil]
    . rw [heq]
      by_cases hnil : g (owner a) = []
      . simp [hnil]
      . have hmem : owner a ∈ keys := by
          by_contra habsent
          exact hnil (hdomain _ habsent)
        have honce : ¬ 2 ≤ names.count (owner a) := fun h => hnil (heq ▸ htwice _ h)
        have hpos := List.count_pos_iff.2 hmem
        exact Nat.mul_le_mul_right _ (by omega)

end Lists

theorem Change.owner_of_memberUnder? {c : Change} {name : String} {m : Member}
    (h : c.memberUnder? name = some m)
    : m.owner = name := by
  cases c with
  | register r | addAlias a | markFault other fault => cases h
  | addMember owner m' =>
    dsimp only [memberUnder?] at h
    split at h
    . cases h
      rfl
    . cases h

namespace Index

/--
Every member that is recorded, under whatever name.
-/
def recorded (i : Index) : List Member :=
  i.members.keys.flatMap fun name => i.members.getD name []

theorem members_eq_nil (i : Index) (name : String) (h : name ∉ i.members.keys)
    : i.members.getD name [] = [] :=
  Std.TreeMap.getD_eq_fallback (mt Std.TreeMap.mem_keys.2 h)

theorem nodup_keys (i : Index) : i.members.keys.Nodup := by
  apply (Std.TreeMap.distinct_keys (t := i.members)).imp
  intro a b h heq
  exact h (Std.LawfulEqOrd.compare_eq_iff_eq.2 heq)

theorem owner_of_mem_members (p : Project) (changes : List Change) (name : String)
    : ∀ m ∈ (changes.foldl Change.apply (ofProject p)).members.getD name [], m.owner = name := by
  intro m hm
  rw [ofProject_eq, ← List.foldl_append, Change.members_foldl] at hm
  rcases List.mem_filterMap.1 hm with ⟨c, _, hc⟩
  exact Change.owner_of_memberUnder? hc

end Index

namespace Context

open Query

variable {ctx : Context}

theorem membersAt_eq_nil_or (ctx : Context) (name : String)
    : ctx.membersAt name = [] ∨ ctx.membersAt name = ctx.index.members.getD name [] := by
  unfold membersAt Index.membersOf Index.lookUp
  cases ctx.index.faults[name]? with
  | none => exact .inr rfl
  | some fault => exact .inl rfl

variable [ctx.Quiet]

omit [ctx.Quiet] in
theorem otherNames_sight (c : Class) (s : QueryState)
    : ctx.otherNames (ctx.sight c s)
        =
      ctx.namesBeside c ((ctx.headerOf c).run s).1.aliasName := by
  have hsimilar : c.Similar (ctx.sight c s) := c.similar_seenAs _
  unfold otherNames
  rw [(headerOf_reads c s).1, ctx.namesBeside_of_similar hsimilar]

theorem alternateNames_run (c : Class) (s : QueryState)
    : ((ctx.alternateNames c).run s).1
        =
      ctx.namesBeside c ((ctx.headerOf c).run s).1.aliasName := by
  rw [(alternateNames_reads c s).1, otherNames_sight]

theorem ownMembers_run {c : Class} (hfields : c.origin.fields? = none) (s : QueryState)
    : ((ctx.ownMembers c).run s).1
        =
      (c.name :: ctx.namesBeside c ((ctx.headerOf c).run s).1.aliasName).flatMap ctx.membersAt := by
  have hsimilar : c.Similar (ctx.sight c s) := c.similar_seenAs _
  rw [(ownMembers_reads c s).1, ownMemberList, otherNames_sight, ← hsimilar.fields?_eq, hfields,
    ← hsimilar.name_eq, Option.getD_none, List.flatMap_cons]

end Context

theorem folded_once_iff (p : Project) (changes : List Change) (options : Options) (scope : Scope)
    (c : Class) (s : QueryState)
    : let index := changes.foldl Change.apply (.ofProject p)
      let ctx : Context := { index, options, scope }
      let names := ((ctx.alternateNames c).run s).1
      let twice := c.isNamedTwice options ((ctx.headerOf c).run s).1.aliasName
      (names.Nodup ∧ c.name ∉ names ↔ twice = false) ∧
      (c.origin.fields? = none →
        (((ctx.ownMembers c).run s).1.Subperm index.recorded
            ↔
          (twice = true → ctx.membersAt (Identity.globalType c.name) = []))) := by
  intro index ctx names twice
  have hcount := ctx.two_le_count_names c ((ctx.headerOf c).run s).1.aliasName
  constructor
  . have hnames : names = ctx.namesBeside c ((ctx.headerOf c).run s).1.aliasName :=
      Context.alternateNames_run c s
    rw [hnames, and_comm, ← List.nodup_cons]
    constructor
    . intro hnodup
      by_contra htwice
      have honce := List.nodup_iff_count_le_one.1 hnodup (Identity.globalType c.name)
      have hagain := (hcount _).2 ⟨eq_true_of_ne_false htwice, rfl⟩
      omega
    . exact ctx.nodup_names
  . intro hfields
    rw [Context.ownMembers_run hfields, Index.recorded,
      subperm_flatMap_iff (Index.owner_of_mem_members p changes) ctx.membersAt_eq_nil_or
        index.nodup_keys index.members_eq_nil]
    simp only [hcount]
    constructor
    . exact fun h htwice => h _ ⟨htwice, rfl⟩
    . rintro h _ ⟨htwice, rfl⟩
      exact h htwice

/--
A class with members under three names, and two classes whose global variable goes by a name that
the class has already.
-/
def Project.folded : Project where
  classes := [
    { decl := (ClassDecl.ofName "Foo").withAlias (some "Bar")
      members := [.new "own" .pub (.named "number")] },
    { decl := (ClassDecl.ofName "_G").withAlias (some "Env")
      members := [.new "print" .pub (.named "function")] },
    { decl := (ClassDecl.ofName "Pkg").withAlias (some "$Pkg") }]
  members := [("Bar", [.new "other" .pub .unknown]), ("$Pkg", [.new "load" .pub (.named "string")])]

theorem folded_once_foo
    : let index := [Change.addMember "$Foo" (.new "global" .pub .unknown)].foldl Change.apply
        (.ofProject .folded)
      let ctx : Context := { index }
      let foo := Class.reference "Foo"
      let s := QueryState.fresh .standard
      let names := ((ctx.alternateNames foo).run s).1
      foo.origin.fields? = none ∧ names = ["Bar", "$Foo"] ∧ names.Nodup ∧ foo.name ∉ names ∧
      ((ctx.ownMembers foo).run s).1.map (·.name) = [some "own", some "other", some "global"] ∧
      ((ctx.ownMembers foo).run s).1.Subperm index.recorded := by
  intro index ctx foo s names
  rcases folded_once_iff .folded [.addMember "$Foo" (.new "global" .pub .unknown)] {} .project foo s
    with ⟨hnames, hmembers⟩
  have honce : foo.isNamedTwice {} ((ctx.headerOf foo).run s).1.aliasName = false := by
    decide +kernel
  rcases hnames.2 honce with ⟨hnodup, hself⟩
  refine ⟨rfl, by decide +kernel, hnodup, hself, by decide +kernel, (hmembers rfl).2 ?_⟩
  intro htwice
  rw [honce] at htwice
  cases htwice

theorem named_twice_listed_twice
    : let ctx : Context := { index := .ofProject .folded }
      let s := QueryState.fresh .standard
      ((ctx.alternateNames (.reference "_G")).run s).1 = ["Env", "_G"] ∧
      ((ctx.alternateNames (.reference "Pkg")).run s).1 = ["$Pkg", "$Pkg"] ∧
      ¬ ((ctx.ownMembers (.reference "_G")).run s).1.Subperm ctx.index.recorded ∧
      ¬ ((ctx.ownMembers (.reference "Pkg")).run s).1.Subperm ctx.index.recorded := by
  intro ctx s
  refine ⟨by decide +kernel, by decide +kernel, ?_, ?_⟩
  . intro h
    have hle := h.countP_le (·.isNamed "print")
    revert hle
    decide +kernel
  . intro h
    have hle := h.countP_le (·.isNamed "load")
    revert hle
    decide +kernel

end LuaClasses
