import LuaClasses.Proofs.Registration

/-!
This module contains the search for declared inheritance as a loop, with a stack of names and the
names that were met. A name is pushed for each declaration that mentions it, so it may be pushed
many times, and again after it was met. Still the loop comes to an end: a round takes a name off the
stack, and a declaration is followed once. What it answers is whether a path leads to the base.
-/

namespace LuaClasses

open Relation

namespace Pool

variable {pool : Pool} {name : String}

theorem remove_of_not_mem (h : name ∉ pool) : pool.remove name = pool := by
  apply List.filter_eq_self.2
  intro n hn
  simp only [bne_iff_ne, ne_eq]
  rintro rfl
  exact h hn

theorem length_flatMap_remove (f : String → List α) (h : name ∈ pool)
    : ((pool.remove name).flatMap f).length + (f name).length ≤ (pool.flatMap f).length := by
  induction pool with
  | nil => cases h
  | cons n rest ih =>
    have hrest : ((remove rest name).flatMap f).length ≤ (rest.flatMap f).length := by
      by_cases hmem : name ∈ rest
      . exact Nat.le_of_add_right_le (ih hmem)
      . exact Nat.le_of_eq (by rw [remove_of_not_mem hmem])
    unfold remove at ih hrest ⊢
    by_cases hn : n = name
    . subst hn
      rw [List.filter_cons_of_neg (by simp), List.flatMap_cons, List.length_append]
      omega
    . have hmem : name ∈ rest := (List.mem_cons.1 h).resolve_left (Ne.symm hn)
      have hle := ih hmem
      rw [List.filter_cons_of_pos (by simpa using hn), List.flatMap_cons, List.flatMap_cons,
        List.length_append, List.length_append]
      omega

end Pool

namespace Index

variable {i : Index} {base : String} {pool : Pool}

theorem reaches_congr {pending pending' : List String} (h : ∀ a, a ∈ pending ↔ a ∈ pending')
    : i.reaches base pool pending = i.reaches base pool pending' := by
  rw [Bool.eq_iff_iff, reaches_iff, reaches_iff]
  simp only [h]

theorem reaches_cons_of_not_mem {name : String} (h : name ∉ pool) (rest : List String)
    : i.reaches base pool (name :: rest) = i.reaches base pool rest := by
  rw [Bool.eq_iff_iff, reaches_iff, reaches_iff]
  constructor
  . rintro ⟨a, ha, hpath⟩
    rcases List.mem_cons.1 ha with rfl | ha
    . exact absurd (mem_pool_of_transGen hpath) h
    . exact ⟨a, ha, hpath⟩
  . rintro ⟨a, ha, hpath⟩
    exact ⟨a, List.mem_cons_of_mem name ha, hpath⟩

theorem reaches_cons_of_mem {name : String} (h : name ∈ pool) (rest : List String)
    : i.reaches base pool (name :: rest)
        =
      ((i.parentsOf name).contains base ||
        i.reaches base (pool.remove name) (i.parentsOf name ++ rest)) := by
  have hfrom : pool.pendingFrom id (name :: rest) = name :: rest :=
    List.dropWhile_cons_of_neg (by simpa using h)
  rw [reaches]
  split
  . next hnil =>
    rw [hfrom] at hnil
    cases hnil
  . next hcons =>
    rw [hfrom] at hcons
    cases hcons
    cases (i.parentsOf name).contains base <;> rfl

theorem parentsOf_eq_nil {scope : Scope} {name : String} (hscope : i.inScope scope name = true)
    (hname : name ∉ i.namesInScope scope)
    : i.parentsOf name = [] := by
  apply List.eq_nil_iff_forall_not_mem.2
  intro b hb
  exact hname (mem_namesInScope_of_mem_parentsOf hscope hb)

end Index

/--
A moment of the search: the names that were met, and the stack of names that are to be looked at.
-/
structure Search where
  met : List String
  pending : List String
  deriving DecidableEq, Repr

namespace Search

variable (i : Index) (scope : Scope) (base : String)

def start (candidate : String) : Search where
  met := []
  pending := [candidate]

/--
One round of the search: its answer, or the next moment. The base is looked for among the parents
of a class before these are pushed.
-/
def round (s : Search) : Bool ⊕ Search :=
  match s.pending with
  | [] => .inl false
  | name :: rest =>
    if s.met.contains name || !i.inScope scope name then
      .inr { met := name :: s.met, pending := rest }
    else if (i.parentsOf name).contains base then .inl true
    else .inr { met := name :: s.met, pending := (i.parentsOf name).reverse ++ rest }

/--
The answer of the search, if it takes no more than so many rounds.
-/
def run : Nat → Search → Option Bool
  | 0, _ => none
  | rounds + 1, s =>
    match s.round i scope base with
    | .inl answer => some answer
    | .inr next => run rounds next

/--
The classes whose declarations may still be followed.
-/
def unmet (s : Search) : Pool :=
  (i.namesInScope scope).filter (!s.met.contains ·)

/--
The names on the stack, and all that may still be pushed.
-/
def work (s : Search) : Nat :=
  s.pending.length + ((s.unmet i scope).flatMap i.parentsOf).length

/--
What the search answers in the end.
-/
def outcome (s : Search) : Bool :=
  i.reaches base (s.unmet i scope) s.pending

section Round

variable {i scope base} {met rest : List String} {name : String}

theorem unmet_cons (pending pending' : List String)
    : unmet i scope ⟨name :: met, pending⟩ = (unmet i scope ⟨met, pending'⟩).remove name := by
  unfold unmet Pool.remove
  rw [List.filter_filter]
  apply List.filter_congr
  intro n _
  rw [List.contains_cons, Bool.not_or]
  rfl

theorem round_of_not_mem (h : name ∉ unmet i scope ⟨met, name :: rest⟩)
    : round i scope base ⟨met, name :: rest⟩ = .inr ⟨name :: met, rest⟩ := by
  unfold round
  dsimp only
  split
  . rfl
  -- The name was not met and is in scope, so it is one that no declaration is known of.
  . next hskip =>
    simp only [Bool.or_eq_true, not_or, Bool.not_eq_true, Bool.not_eq_false'] at hskip
    have hname : name ∉ i.namesInScope scope := fun hname => h (List.mem_filter.2 ⟨hname, by
      rw [hskip.1]
      rfl⟩)
    rw [Index.parentsOf_eq_nil hskip.2 hname]
    rfl

theorem round_of_mem (h : name ∈ unmet i scope ⟨met, name :: rest⟩)
    : round i scope base ⟨met, name :: rest⟩
        =
      if (i.parentsOf name).contains base then .inl true
      else .inr ⟨name :: met, (i.parentsOf name).reverse ++ rest⟩ := by
  rcases List.mem_filter.1 h with ⟨hname, hmet⟩
  have hskip : (met.contains name || !i.inScope scope name) = false := by
    rw [(List.mem_filter.1 hname).2]
    simpa using hmet
  unfold round
  dsimp only
  rw [hskip]
  rfl

end Round

/--
A round gives the answer, or it leaves the answer as it is and there is less to do.
-/
theorem round_cases (s : Search)
    : s.round i scope base = .inl (s.outcome i scope base) ∨
      ∃ next, s.round i scope base = .inr next ∧
        next.outcome i scope base = s.outcome i scope base ∧
        next.work i scope < s.work i scope := by
  rcases s with ⟨met, pending⟩
  cases pending with
  | nil =>
    left
    unfold outcome
    rw [Index.reaches]
    rfl
  | cons name rest =>
    by_cases hname : name ∈ unmet i scope ⟨met, name :: rest⟩
    . have hlength := Pool.length_flatMap_remove i.parentsOf hname
      rw [round_of_mem hname]
      unfold outcome work
      rw [Index.reaches_cons_of_mem hname]
      split
      . next hbase =>
        rw [hbase]
        exact .inl rfl
      . next hbase =>
        refine .inr ⟨_, rfl, ?_, ?_⟩
        . rw [Bool.not_eq_true] at hbase
          rw [hbase, Bool.false_or, unmet_cons _ (name :: rest)]
          apply Index.reaches_congr
          simp
        . rw [unmet_cons _ (name :: rest)]
          simp only [List.length_append, List.length_reverse, List.length_cons]
          omega
    . refine .inr ⟨_, round_of_not_mem hname, ?_, ?_⟩
      . unfold outcome
        rw [unmet_cons _ (name :: rest), Pool.remove_of_not_mem hname,
          Index.reaches_cons_of_not_mem hname]
      . unfold work
        rw [unmet_cons _ (name :: rest), Pool.remove_of_not_mem hname]
        simp

theorem run_eq_outcome {rounds : Nat} {s : Search} (h : s.work i scope < rounds)
    : run i scope base rounds s = some (s.outcome i scope base) := by
  induction rounds generalizing s with
  | zero => cases h
  | succ rounds ih =>
    unfold run
    rcases round_cases i scope base s with hround | ⟨next, hround, houtcome, hwork⟩
    . rw [hround]
    . rw [hround, ← houtcome]
      exact ih (by omega)

theorem unmet_start (candidate : String)
    : (start candidate).unmet i scope = i.namesInScope scope :=
  List.filter_eq_self.2 fun _ _ => rfl

end Search

theorem transGen_iff_sequence {α : Type} {r : α → α → Prop} {a b : α}
    : TransGen r a b
        ↔
      ∃ (k : Nat) (n : Nat → α), 0 < k ∧ n 0 = a ∧ n k = b ∧ ∀ j < k, r (n j) (n (j + 1)) := by
  constructor
  . intro h
    induction h using TransGen.head_induction_on with
    | @single a hab =>
      refine ⟨1, fun j => if j = 0 then a else b, Nat.one_pos, rfl, rfl, ?_⟩
      intro j hj
      cases Nat.lt_one_iff.1 hj
      exact hab
    | @head a c hac _ ih =>
      rcases ih with ⟨k, n, _, hstart, hend, hsteps⟩
      refine ⟨k + 1, fun j => if j = 0 then a else n (j - 1), Nat.succ_pos k, rfl, hend, ?_⟩
      intro j hj
      cases j with
      | zero => simpa [hstart] using hac
      | succ j => exact hsteps j (Nat.lt_of_succ_lt_succ hj)
  . rintro ⟨k, n, hk, rfl, rfl, hsteps⟩
    induction k with
    | zero => cases hk
    | succ k ih =>
      have hlast := hsteps k (Nat.lt_succ_self k)
      cases Nat.eq_zero_or_pos k with
      | inl hzero =>
        subst hzero
        exact .single hlast
      | inr hpos => exact (ih hpos fun j hj => hsteps j (Nat.lt_succ_of_lt hj)).tail hlast

theorem Index.inScope_iff {i : Index} {scope : Scope} {name : String}
    : i.inScope scope name = true
        ↔
      scope = .project ∨ ∃ file, scope = .file file ∧ i.files[name]? = some file := by
  cases scope <;> simp [inScope]

theorem Index.link_iff {i : Index} {scope : Scope} {a b : String}
    : i.Link scope a b
        ↔
      (scope = .project ∨ ∃ file, scope = .file file ∧ i.files[a]? = some file) ∧
      ∃ header, i.classes[a]? = some header ∧
        (header.superName = some b ∨ b ∈ header.interfaceNames) := by
  unfold Link parentsOf
  rw [inScope_iff]
  cases i.classes[a]? with
  | none => simp
  | some header => simp [Header.parents]

theorem inheritsFrom_iff_exists_path (i : Index) (scope : Scope) (candidate base : String)
    : (i.inheritsFrom scope candidate base = true
        ↔
      ∃ (k : Nat) (n : Nat → String), 0 < k ∧ n 0 = candidate ∧ n k = base ∧
        ∀ j < k,
          (scope = .project ∨ ∃ file, scope = .file file ∧ i.files[n j]? = some file) ∧
          ∃ header, i.classes[n j]? = some header ∧
            (header.superName = some (n (j + 1)) ∨ n (j + 1) ∈ header.interfaceNames)) ∧
      (let mentions := (i.namesInScope scope).flatMap i.parentsOf
      Search.run i scope base (mentions.length + 2) (.start candidate)
        =
      some (i.inheritsFrom scope candidate base)) := by
  constructor
  . rw [Index.inheritsFrom_iff, transGen_iff_sequence]
    simp only [Index.link_iff]
  . intro mentions
    have houtcome : (Search.start candidate).outcome i scope base
        = i.inheritsFrom scope candidate base := by
      unfold Search.outcome
      rw [Search.unmet_start]
      rfl
    have hwork : (Search.start candidate).work i scope = 1 + mentions.length := by
      unfold Search.work
      rw [Search.unmet_start]
      rfl
    rw [← houtcome]
    apply Search.run_eq_outcome
    omega

/--
A class whose parent is declared in the same file, and the parent of that one in another.
-/
def Project.twoFiles : Project where
  classes := [
    { decl := { name := "Puppy", header := { superName := some "Dog" } }, file := some "dog.lua" },
    { decl := { name := "Dog", header := { interfaceNames := ["Animal"] } }, file := some "dog.lua" },
    { decl := { name := "Animal", header := { superName := some "Being" } }
      file := some "animal.lua" }]

theorem inheritsFrom_iff_exists_path_twoFiles
    : let index := Index.ofProject .twoFiles
      index.inheritsFrom (.file "dog.lua") "Puppy" "Animal" = true ∧
      index.inheritsFrom (.file "dog.lua") "Puppy" "Being" = false := by
  intro index
  have hpath := inheritsFrom_iff_exists_path index (.file "dog.lua") "Puppy" "Animal"
  have hsearch := inheritsFrom_iff_exists_path index (.file "dog.lua") "Puppy" "Being"
  constructor
  . refine hpath.1.2 ⟨2, fun j => ["Puppy", "Dog", "Animal"].getD j "", by decide, rfl, rfl, ?_⟩
    intro j hj
    have hfile : index.files[["Puppy", "Dog", "Animal"].getD j ""]? = some "dog.lua" := by
      rcases j with _ | _ | j
      . decide +kernel
      . decide +kernel
      . omega
    refine ⟨.inr ⟨"dog.lua", rfl, hfile⟩, ?_⟩
    rcases j with _ | _ | j
    . exact ⟨{ superName := some "Dog" }, by decide +kernel, .inl rfl⟩
    . exact ⟨{ interfaceNames := ["Animal"] }, by decide +kernel, .inr (.head _)⟩
    . omega
  . apply Option.some.inj
    rw [← hsearch.2]
    decide +kernel

end LuaClasses
