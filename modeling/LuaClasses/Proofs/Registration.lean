import LuaClasses.Proofs.Lineage
import Mathlib.Logic.Relation

/-!
This module contains the search for declared inheritance as reachability along declarations, and the
history of registrations that an index comes from. A class that is declared again keeps the file of
its last declaration that had one, so a search in a file also follows declarations that stand in no
file at all.
-/

namespace LuaClasses

open Relation

namespace Index

variable (i : Index)

/--
Whether the declaration of `a` is in the scope and names `b` as a parent.
-/
def Link (scope : Scope) (a b : String) : Prop :=
  i.inScope scope a = true ∧ b ∈ i.parentsOf a

/--
A link from a class of the pool.
-/
def LinkIn (pool : Pool) (a b : String) : Prop :=
  a ∈ pool ∧ b ∈ i.parentsOf a

variable {i}

theorem LinkIn.of_remove {pool : Pool} {name a b : String} (h : i.LinkIn (pool.remove name) a b)
    : i.LinkIn pool a b :=
  ⟨(Pool.mem_remove.1 h.1).1, h.2⟩

theorem LinkIn.remove {pool : Pool} {name a b : String} (h : i.LinkIn pool a b) (ha : a ≠ name)
    : i.LinkIn (pool.remove name) a b :=
  ⟨Pool.mem_remove.2 ⟨h.1, ha⟩, h.2⟩

/--
A path can be cut after the last time that it leaves a class, unless this is its last step.
-/
theorem transGen_remove {pool : Pool} {name a base : String}
    (h : TransGen (i.LinkIn pool) a base) (hbase : base ∉ i.parentsOf name)
    : TransGen (i.LinkIn (pool.remove name)) a base ∨
      ∃ b ∈ i.parentsOf name, TransGen (i.LinkIn (pool.remove name)) b base := by
  induction h using TransGen.head_induction_on with
  | single hlink =>
    left
    apply TransGen.single
    apply hlink.remove
    rintro rfl
    exact hbase hlink.2
  | @head a b hlink _ ih =>
    rcases ih with hpath | hpath
    . by_cases ha : a = name
      . subst ha
        exact .inr ⟨b, hlink.2, hpath⟩
      . exact .inl (hpath.head (hlink.remove ha))
    . exact .inr hpath

theorem mem_pool_of_transGen {pool : Pool} {a base : String}
    (h : TransGen (i.LinkIn pool) a base)
    : a ∈ pool := by
  rcases TransGen.head'_iff.1 h with ⟨_, hlink, _⟩
  exact hlink.1

theorem reaches_iff (base : String) (pool : Pool) (pending : List String)
    : i.reaches base pool pending = true
        ↔
      ∃ a ∈ pending, TransGen (i.LinkIn pool) a base := by
  fun_induction reaches i base pool pending with
  | case1 pool pending hfrom =>
    simp only [Bool.false_eq_true, false_iff, not_exists, not_and]
    intro a ha hpath
    have hmem : a ∈ pool.pendingFrom id pending :=
      Pool.mem_pendingFrom ha (mem_pool_of_transGen hpath)
    rw [hfrom] at hmem
    cases hmem
  | case2 pool pending name rest hfrom hbase =>
    have hname : name ∈ pool := Pool.mem_of_pendingFrom hfrom
    have hlink : i.LinkIn pool name base := ⟨hname, by simpa using hbase⟩
    simp only [true_iff]
    exact ⟨name, Pool.subset_of_pendingFrom hfrom List.mem_cons_self, .single hlink⟩
  | case3 pool pending name rest hfrom hbase ih =>
    have hname : name ∈ pool := Pool.mem_of_pendingFrom hfrom
    have hsubset := Pool.subset_of_pendingFrom hfrom
    rw [ih]
    constructor
    . rintro ⟨a, ha, hpath⟩
      have hpath' := TransGen.mono (fun _ _ => LinkIn.of_remove) _ _ hpath
      rcases List.mem_append.1 ha with ha | ha
      . exact ⟨name, hsubset List.mem_cons_self, hpath'.head ⟨hname, ha⟩⟩
      . exact ⟨a, hsubset (List.mem_cons_of_mem name ha), hpath'⟩
    . rintro ⟨a, ha, hpath⟩
      rcases transGen_remove hpath (by simpa using hbase) with hpath' | ⟨b, hb, hpath'⟩
      . have hmem : a ∈ pool.pendingFrom id pending :=
          Pool.mem_pendingFrom ha (mem_pool_of_transGen hpath)
        rw [hfrom] at hmem
        rcases List.mem_cons.1 hmem with rfl | hmem
        . exact absurd rfl (Pool.mem_remove.1 (mem_pool_of_transGen hpath')).2
        . exact ⟨a, List.mem_append_right _ hmem, hpath'⟩
      . exact ⟨b, List.mem_append_left _ hb, hpath'⟩

theorem mem_namesInScope_of_mem_parentsOf {scope : Scope} {a b : String}
    (hscope : i.inScope scope a = true) (hb : b ∈ i.parentsOf a)
    : a ∈ i.namesInScope scope := by
  unfold parentsOf at hb
  split at hb
  . next header hheader =>
    refine List.mem_filter.2 ⟨?_, hscope⟩
    change a ∈ i.classes.keys
    rw [Std.TreeMap.mem_keys, Std.TreeMap.mem_iff_isSome_getElem?, hheader]
    rfl
  . cases hb

theorem inheritsFrom_iff (scope : Scope) (candidate base : String)
    : i.inheritsFrom scope candidate base = true ↔ TransGen (i.Link scope) candidate base := by
  have hlink : i.LinkIn (i.namesInScope scope) = i.Link scope := by
    funext a b
    apply propext
    constructor
    . exact fun h => ⟨(List.mem_filter.1 h.1).2, h.2⟩
    . exact fun h => ⟨mem_namesInScope_of_mem_parentsOf h.1 h.2, h.2⟩
  unfold inheritsFrom
  rw [reaches_iff, hlink]
  simp

end Index

/--
A class declaration as it is given to an index, with the file that it stands in, if there is one.
-/
structure Registration where
  decl : ClassDecl
  file : Option String

namespace Registration

/--
The registrations of a name.
-/
def named (rs : List Registration) (name : String) : List Registration :=
  rs.filter (·.decl.name == name)

/--
The last registration of a name.
-/
def inForce? (rs : List Registration) (name : String) : Option Registration :=
  (named rs name).getLast?

/--
The file of the last registration of a name that has a file.
-/
def lastFile? (rs : List Registration) (name : String) : Option String :=
  ((named rs name).filterMap (·.file)).getLast?

/--
Whether the registration of `a` in force stands in the file and names `b` as a parent.
-/
def DeclaredIn (rs : List Registration) (file a b : String) : Prop :=
  ∃ r, inForce? rs a = some r ∧ r.file = some file ∧ b ∈ r.decl.header.parents

/--
Whether the registration of `a` in force stands in no file and names `b` as a parent, but an earlier
one stood in the file, and none since in another.
-/
def Outlived (rs : List Registration) (file a b : String) : Prop :=
  ∃ r, inForce? rs a = some r ∧ r.file = none ∧ lastFile? rs a = some file ∧
    b ∈ r.decl.header.parents

variable (rs : List Registration) (r : Registration) (name : String)

theorem inForce?_concat
    : inForce? (rs ++ [r]) name = if r.decl.name = name then some r else inForce? rs name := by
  unfold inForce? named
  split
  . next h => simp [List.filter_append, h]
  . next h => simp [List.filter_append, h]

theorem lastFile?_concat
    : lastFile? (rs ++ [r]) name
        =
      if r.decl.name = name then r.file.or (lastFile? rs name) else lastFile? rs name := by
  unfold lastFile? named
  split
  . next h => cases hfile : r.file <;> simp [List.filter_append, h, hfile]
  . next h => simp [List.filter_append, h]

variable {rs r name}

theorem lastFile?_of_inForce? {file : String} (h : inForce? rs name = some r)
    (hfile : r.file = some file)
    : lastFile? rs name = some file := by
  rcases List.getLast?_eq_some_iff.1 h with ⟨before, hnamed⟩
  unfold lastFile?
  rw [hnamed]
  simp [hfile]

theorem declaredIn_or_outlived_iff {file a b : String}
    : DeclaredIn rs file a b ∨ Outlived rs file a b
        ↔
      lastFile? rs a = some file ∧ ∃ r, inForce? rs a = some r ∧ b ∈ r.decl.header.parents := by
  constructor
  . rintro (⟨r, hforce, hfile, hb⟩ | ⟨r, hforce, _, hlast, hb⟩)
    . exact ⟨lastFile?_of_inForce? hforce hfile, r, hforce, hb⟩
    . exact ⟨hlast, r, hforce, hb⟩
  . rintro ⟨hlast, r, hforce, hb⟩
    cases hfile : r.file with
    | none => exact .inr ⟨r, hforce, hfile, hlast, hb⟩
    | some file' =>
      have heq := lastFile?_of_inForce? hforce hfile
      rw [hlast, Option.some.injEq] at heq
      exact .inl ⟨r, hforce, heq ▸ hfile, hb⟩

end Registration

/--
A change of an index.
-/
inductive Change where
  | register (r : Registration)
  | addMember (owner : String) (m : Member)
  | addAlias (a : AliasDecl)
  | markFault (name : String) (fault : Fault)

namespace Change

def apply (i : Index) : Change → Index
  | .register ⟨d, some file⟩ => i.declareIn d file
  | .register ⟨d, none⟩ => i.declare d
  | .addMember owner m => i.addMember owner m
  | .addAlias a => i.addAlias a
  | .markFault name fault => i.markFault name fault

def registration? : Change → Option Registration
  | .register r => some r
  | _ => none

end Change

namespace Project

def registrations (p : Project) : List Registration :=
  p.classes.map fun e => ⟨e.decl, e.file⟩

/--
The changes that make up the index of a project.
-/
def changes (p : Project) : List Change :=
  (p.classes.flatMap fun e =>
    .register ⟨e.decl, e.file⟩ :: e.members.map (.addMember e.decl.name)) ++
  (p.members.flatMap fun (owner, ms) => ms.map (.addMember owner)) ++ p.aliases.map .addAlias

theorem filterMap_changes (p : Project)
    : p.changes.filterMap Change.registration? = p.registrations := by
  have hmembers : ∀ owner (ms : List Member),
      (ms.map (Change.addMember owner)).filterMap Change.registration? = [] := by
    intro owner ms
    simp [Change.registration?]
  have haliases : (p.aliases.map Change.addAlias).filterMap Change.registration? = [] := by
    simp [Change.registration?]
  unfold changes registrations
  rw [List.filterMap_append, List.filterMap_append, haliases, List.filterMap_flatMap,
    List.filterMap_flatMap]
  simp [Change.registration?, hmembers, ← List.map_eq_flatMap]

end Project

theorem Index.addEntry_eq (i : Index) (e : ClassEntry)
    : i.addEntry e
        =
      (e.members.map (Change.addMember e.decl.name)).foldl Change.apply
        ((Change.register ⟨e.decl, e.file⟩).apply i) := by
  rw [List.foldl_map]
  unfold addEntry
  cases e.file <;> rfl

theorem Index.ofProject_eq (p : Project)
    : Index.ofProject p = p.changes.foldl Change.apply {} := by
  have hentry : addEntry = fun i e =>
      (e.members.map (Change.addMember e.decl.name)).foldl Change.apply
        ((Change.register ⟨e.decl, e.file⟩).apply i) := by
    funext i e
    exact addEntry_eq i e
  unfold Project.changes ofProject
  simp only [hentry, List.foldl_append, List.foldl_flatMap, List.foldl_cons, List.foldl_map]
  rfl

namespace Index

/--
The two tables of an index that tell about classes are those of the registrations.
-/
structure Reflects (rs : List Registration) (i : Index) : Prop where
  classes_eq : ∀ name, i.classes[name]? = (Registration.inForce? rs name).map (·.decl.header)
  files_eq : ∀ name, i.files[name]? = Registration.lastFile? rs name

namespace Reflects

variable {rs : List Registration} {i i' : Index}

theorem empty : Reflects [] {} := by
  constructor
  . intro name
    simp [Registration.inForce?, Registration.named]
  . intro name
    simp [Registration.lastFile?, Registration.named]

theorem of_eq (h : i.Reflects rs) (hclasses : i'.classes = i.classes) (hfiles : i'.files = i.files)
    : i'.Reflects rs := by
  constructor
  . rw [hclasses]
    exact h.classes_eq
  . rw [hfiles]
    exact h.files_eq

theorem register (h : i.Reflects rs) (r : Registration)
    : ((Change.register r).apply i).Reflects (rs ++ [r]) := by
  have hclasses : ∀ name, (i.classes.insert r.decl.name r.decl.header)[name]?
      = (Registration.inForce? (rs ++ [r]) name).map (·.decl.header) := by
    intro name
    rw [Registration.inForce?_concat]
    simp only [Std.TreeMap.getElem?_insert, Std.LawfulEqOrd.compare_eq_iff_eq]
    split
    . rfl
    . exact h.classes_eq name
  rcases r with ⟨d, file⟩
  cases file with
  | none =>
    refine ⟨hclasses, ?_⟩
    intro name
    rw [Registration.lastFile?_concat, Option.none_or, ite_self]
    exact h.files_eq name
  | some file =>
    refine ⟨hclasses, ?_⟩
    intro name
    change (i.files.insert d.name file)[name]? = _
    rw [Registration.lastFile?_concat]
    simp only [Std.TreeMap.getElem?_insert, Std.LawfulEqOrd.compare_eq_iff_eq]
    split
    . rfl
    . exact h.files_eq name

theorem change (h : i.Reflects rs) (c : Change)
    : (c.apply i).Reflects (rs ++ c.registration?.toList) := by
  cases c with
  | register r => exact h.register r
  | addMember owner m | addAlias a | markFault name fault =>
    change Reflects (rs ++ []) _
    rw [List.append_nil]
    exact h.of_eq rfl rfl

theorem changes (h : i.Reflects rs) (cs : List Change)
    : (cs.foldl Change.apply i).Reflects (rs ++ cs.filterMap Change.registration?) := by
  induction cs generalizing rs i with
  | nil => simpa using h
  | cons c rest ih =>
    have hrest := ih (h.change c)
    rw [List.append_assoc] at hrest
    rw [List.filterMap_cons]
    cases hc : c.registration? <;> simpa [hc] using hrest

theorem link_iff (h : i.Reflects rs) (file a b : String)
    : i.Link (.file file) a b
        ↔
      Registration.DeclaredIn rs file a b ∨ Registration.Outlived rs file a b := by
  rw [Registration.declaredIn_or_outlived_iff]
  unfold Link inScope parentsOf
  rw [h.files_eq, h.classes_eq, beq_iff_eq]
  cases Registration.inForce? rs a <;> simp

end Reflects

theorem ofProject_reflects (p : Project) : (Index.ofProject p).Reflects p.registrations := by
  have hchanges := Reflects.empty.changes p.changes
  rw [List.nil_append, p.filterMap_changes] at hchanges
  rwa [ofProject_eq]

end Index

theorem inheritsFrom_file_iff (p : Project) (changes : List Change) (file candidate base : String)
    : let index := changes.foldl Change.apply (.ofProject p)
      let rs := p.registrations ++ changes.filterMap Change.registration?
      index.inheritsFrom (.file file) candidate base = true
        ↔
      TransGen (fun a b => Registration.DeclaredIn rs file a b ∨ Registration.Outlived rs file a b)
        candidate base := by
  intro index rs
  have hreflects : index.Reflects rs := (Index.ofProject_reflects p).changes changes
  have hlinks : index.Link (.file file)
      = fun a b => Registration.DeclaredIn rs file a b ∨ Registration.Outlived rs file a b := by
    funext a b
    exact propext (hreflects.link_iff file a b)
  rw [Index.inheritsFrom_iff, hlinks]

theorem outlived_file_followed
    : let changes : List Change :=
        [.register ⟨{ name := "Dog", header := { superName := some "Animal" } }, some "dog.lua"⟩,
          .register ⟨{ name := "Dog", header := { superName := some "Robot" } }, none⟩]
      let rs := changes.filterMap Change.registration?
      (changes.foldl Change.apply (.ofProject {})).inheritsFrom (.file "dog.lua") "Dog" "Robot"
        = true ∧
      ¬TransGen (Registration.DeclaredIn rs "dog.lua") "Dog" "Robot" := by
  intro changes rs
  refine ⟨by decide +kernel, ?_⟩
  intro hpath
  rcases TransGen.head'_iff.1 hpath with ⟨_, ⟨r, hforce, hfile, _⟩, _⟩
  cases hforce
  cases hfile

end LuaClasses
