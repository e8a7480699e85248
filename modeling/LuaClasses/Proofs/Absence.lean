import LuaClasses.Proofs.DepthFirst

/-!
This module contains the proof that a look-up that fails is as good as one that finds nothing. If
everything that is stored under the names whose look-ups fail is deleted, and no look-up fails any
more, then the queries about the structure of classes and types answer the same as before. Only the
search for declared inheritance, which decides on visible members, reads the index in another way.
-/

namespace LuaClasses

namespace Index

/--
The entries of a table whose look-ups do not fail.
-/
def intact (i : Index) (table : Std.TreeMap String β) : Std.TreeMap String β :=
  table.filter fun name _ => !i.faults.contains name

/--
The index without what is stored under names whose look-ups fail. None of its look-ups fails.
-/
def purged (i : Index) : Index :=
  { i with
    classes := i.intact i.classes
    members := i.intact i.members
    aliases := i.intact i.aliases
    faults := ∅ }

variable (i : Index) (name : String)

theorem getElem?_intact (table : Std.TreeMap String β)
    : (i.intact table)[name]? = if i.faults[name]?.isSome then none else table[name]? := by
  unfold intact
  rw [Std.TreeMap.getElem?_filter', Std.TreeMap.contains_eq_isSome_getElem?]
  cases i.faults[name]? with
  | some fault => simp
  | none => cases table[name]? <;> simp

theorem lookUp_purged (table : Std.TreeMap String β) (answer : Option β → α)
    : i.purged.lookUp name (answer (i.intact table)[name]?)
        =
      .ok ((i.lookUp name (answer table[name]?)).toOption.getD (answer none)) := by
  rw [getElem?_intact]
  simp only [lookUp, purged, Std.TreeMap.getElem?_emptyc]
  cases i.faults[name]? with
  | some fault => rfl
  | none => rfl

theorem findClass_purged
    : i.purged.findClass name = .ok ((i.findClass name).toOption.getD none) :=
  i.lookUp_purged name i.classes _

theorem membersOf_purged
    : i.purged.membersOf name = .ok ((i.membersOf name).toOption.getD []) := by
  unfold membersOf
  rw [Std.TreeMap.getD_eq_getD_getElem?, Std.TreeMap.getD_eq_getD_getElem?]
  exact i.lookUp_purged name i.members (·.getD [])

theorem findAlias_purged
    : i.purged.findAlias name = .ok ((i.findAlias name).toOption.getD none) :=
  i.lookUp_purged name i.aliases _

end Index

theorem Pool.mem_remove_congr {pool pool' : Pool} {name other : String}
    (h : other ∈ pool ↔ other ∈ pool')
    : other ∈ pool.remove name ↔ other ∈ pool'.remove name := by
  rw [mem_remove, mem_remove, h]

theorem Pool.pendingFrom_congr {pool pool' : Pool} {nameOf : α → String} {pending : List α}
    (h : ∀ a ∈ pending, nameOf a ∈ pool ↔ nameOf a ∈ pool')
    : pool.pendingFrom nameOf pending = pool'.pendingFrom nameOf pending := by
  induction pending with
  | nil => rfl
  | cons a rest ih =>
    have ha := h a List.mem_cons_self
    by_cases hmem : nameOf a ∈ pool
    . rw [pendingFrom_cons_of_mem hmem, pendingFrom_cons_of_mem (ha.1 hmem)]
    . rw [pendingFrom_cons_of_not_mem hmem, pendingFrom_cons_of_not_mem (mt ha.2 hmem)]
      exact ih fun b hb => h b (List.mem_cons_of_mem a hb)

namespace Context

/--
Two contexts in which the look-ups of queries find the same.
-/
structure SameFacts (ctx ctx' : Context) : Prop where
  options_eq : ctx.options = ctx'.options
  declaration?_eq : ctx.declaration? = ctx'.declaration?
  membersAt_eq : ctx.membersAt = ctx'.membersAt
  aliasAt?_eq : ctx.aliasAt? = ctx'.aliasAt?

namespace SameFacts

variable {ctx ctx' : Context} (h : ctx.SameFacts ctx')

include h

theorem declared?_eq : ctx.declared? = ctx'.declared? := by
  unfold declared?
  rw [h.declaration?_eq]

theorem knownHeader_eq : ctx.knownHeader = ctx'.knownHeader := by
  unfold knownHeader
  rw [h.declaration?_eq]

theorem superclass?_eq : ctx.superclass? = ctx'.superclass? := by
  unfold superclass?
  rw [h.knownHeader_eq, h.declared?_eq]

theorem extended_eq : ctx.extended = ctx'.extended := by
  unfold extended
  rw [h.knownHeader_eq, h.declared?_eq]

/--
The pools of the two contexts may differ in names that are not declared, which no walk meets.
-/
theorem chain_eq {pool pool' : Pool} {next : Option Class}
    (hpool : ∀ c, ctx.IsDeclared c → (c.name ∈ pool ↔ c.name ∈ pool'))
    (hnext : ∀ c ∈ next, ctx.IsDeclared c)
    : ctx.chain pool next = ctx'.chain pool' next := by
  fun_induction chain ctx pool next generalizing pool' with
  | case1 => rw [chain]
  | case2 pool c hc hinterface =>
    rw [h.knownHeader_eq] at hinterface
    rw [chain]
    simp only [dif_pos ((hpool c (hnext c rfl)).1 hc), hinterface, if_true]
  | @case3 pool c hc hinterface rest ih =>
    have hrest : rest = ctx'.chain (pool'.remove c.name) (ctx'.superclass? c) := by
      rw [← h.superclass?_eq]
      exact ih (fun d hd => Pool.mem_remove_congr (hpool d hd)) fun _ => isDeclared_of_superclass?
    rw [h.knownHeader_eq] at hinterface
    rw [chain, hrest]
    simp only [dif_pos ((hpool c (hnext c rfl)).1 hc), if_neg hinterface]
  | case4 pool c hc =>
    rw [chain]
    simp only [dif_neg (mt (hpool c (hnext c rfl)).2 hc)]

theorem forest_eq {pool pool' : Pool} {pending : List Class}
    (hpool : ∀ c, ctx.IsDeclared c → (c.name ∈ pool ↔ c.name ∈ pool'))
    (hpending : ∀ c ∈ pending, ctx.IsDeclared c)
    : ctx.forest pool pending = ctx'.forest pool' pending := by
  fun_induction forest ctx pool pending generalizing pool' with
  | case1 pool pending hfrom =>
    rw [Pool.pendingFrom_congr fun c hc => hpool c (hpending c hc)] at hfrom
    rw [forest_of_pendingFrom_nil hfrom]
  | case2 pool pending c rest hfrom ih =>
    have hbelow := (isDeclared_of_pendingFrom hpending hfrom).2
    rw [ih (fun d hd => Pool.mem_remove_congr (hpool d hd)) hbelow, h.extended_eq]
    rw [Pool.pendingFrom_congr fun c hc => hpool c (hpending c hc)] at hfrom
    rw [forest_of_pendingFrom_cons hfrom]

theorem mem_poolFrom_iff {c d : Class} (hd : ctx.IsDeclared d)
    : d.name ∈ ctx.poolFrom c ↔ d.name ∈ ctx'.poolFrom c := by
  have hd' : ctx'.IsDeclared d := by
    unfold IsDeclared
    rw [← h.declared?_eq]
    exact hd
  simp [mem_poolFrom, name_mem_classNames_of_declared? hd, name_mem_classNames_of_declared? hd']

theorem superclasses_eq : ctx.superclasses = ctx'.superclasses := by
  funext c
  unfold superclasses
  rw [← h.superclass?_eq]
  exact h.chain_eq (fun _ => h.mem_poolFrom_iff) fun _ => isDeclared_of_superclass?

theorem interfaceForest_eq : ctx.interfaceForest = ctx'.interfaceForest := by
  funext c
  unfold interfaceForest
  rw [← h.extended_eq]
  exact h.forest_eq (fun _ => h.mem_poolFrom_iff) fun _ => isDeclared_of_mem_extended

theorem lineage_eq : ctx.lineage = ctx'.lineage := by
  unfold lineage
  rw [h.superclasses_eq, h.interfaceForest_eq]

theorem otherNames_eq : ctx.otherNames = ctx'.otherNames := by
  unfold otherNames namesBeside
  rw [h.knownHeader_eq, h.options_eq]

theorem ownMemberList_eq : ctx.ownMemberList = ctx'.ownMemberList := by
  unfold ownMemberList
  rw [h.membersAt_eq, h.otherNames_eq]

theorem memberPairs_eq : ctx.memberPairs = ctx'.memberPairs := by
  unfold memberPairs memberPairsAs
  rw [h.ownMemberList_eq, h.lineage_eq]

theorem member?_eq : ctx.member? = ctx'.member? := by
  funext c name
  rw [ctx.member?_eq_find?, ctx'.member?_eq_find?, h.memberPairs_eq]

theorem keyMember?_eq : ctx.keyMember? = ctx'.keyMember? := by
  unfold keyMember?
  rw [h.member?_eq]

theorem recovered_eq : Request.recovered ctx = Request.recovered ctx' := by
  unfold Request.recovered
  rw [h.aliasAt?_eq]

/--
The check of classes is built from the facts that the contexts share.
-/
theorem checker_eq : Guarded.checker ctx = Guarded.checker ctx' := by
  unfold Guarded.checker
  rw [h.lineage_eq, h.knownHeader_eq, h.ownMemberList_eq, h.member?_eq]

end SameFacts

theorem sameFacts_purged (index : Index) (options : Options) (scope : Scope)
    : SameFacts { index, options, scope } { index := index.purged, options, scope } where
  options_eq := rfl
  declaration?_eq := by
    funext name
    unfold declaration?
    rw [Index.findClass_purged]
    cases index.findClass name with
    | error => rfl
    | ok found => cases found <;> rfl
  membersAt_eq := by
    funext name
    unfold membersAt
    rw [Index.membersOf_purged]
    rfl
  aliasAt?_eq := by
    funext name
    unfold aliasAt?
    rw [Index.findAlias_purged]
    rfl

end Context

namespace Request

/--
Whether the query is for the members that are visible from a class.
-/
def isVisibility : Request → Bool
  | .visibleMembers .. => true
  | _ => false

theorem meaning_eq {ctx ctx' : Context} (h : ctx.SameFacts ctx') {r : Request}
    (hr : r.isVisibility = false)
    : r.meaning ctx = r.meaning ctx' := by
  cases r with
  | visibleMembers => cases hr
  | ancestors => simp only [meaning, h.lineage_eq]
  | interfaces => simp only [meaning, h.interfaceForest_eq]
  | ownMembers => simp only [meaning, h.ownMemberList_eq]
  | members => simp only [meaning, h.memberPairs_eq]
  | findMember => simp only [meaning, h.member?_eq]
  | keyType => simp only [meaning, h.keyMember?_eq]
  | alternateNames => simp only [meaning, h.otherNames_eq]
  | recoverAlias => simp only [meaning, h.recovered_eq]
  | subtype => simp only [meaning, Guarded.isSubtype, h.checker_eq]
  | subclass => simp only [meaning, Guarded.isSubclass, h.checker_eq]

theorem isVisibility_erase (r : Request) : r.erase.isVisibility = r.isVisibility := by
  cases r <;> rfl

end Request

theorem answer_eq_answer_purged (index : Index) (options : Options) (scope : Scope)
    (limits : Limits) {history history' : List Request} {pool pool' : List Class}
    {s s' : QueryState}
    (h : Session { index, options, scope } limits history pool s)
    (h' : Session { index := index.purged, options, scope } limits history' pool' s')
    {r r' : Request} (hr : r.Over pool) (hr' : r'.Over pool') (hsame : r.erase = r'.erase)
    (hvisibility : r.isVisibility = false)
    : ((r.run { index, options, scope }).run s).1.erase
        =
      ((r'.run { index := index.purged, options, scope }).run s').1.erase := by
  have hmeaning := Request.meaning_eq (Context.sameFacts_purged index options scope)
    (r.isVisibility_erase.trans hvisibility)
  rw [h.answer_erase hr, h'.answer_erase hr', ← hsame, hmeaning]

theorem answer_eq_answer_purged_shapes
    : let index := Index.shapes.markFault "Dot" .unavailable
      let ctx : Context := { index }
      let ctx' : Context := { index := index.purged }
      let made (ctx : Context) := (do
        discard ((Maker.reference "Square").run ctx)
        (Maker.reference "Shape").run ctx : Query (Ty Class)).run (.fresh .standard)
      let r := Request.subtype (.cls (.referenceAt "Square" 0)) (.cls (.referenceAt "Shape" 1)) true
      -- The members of `Dot` are needed only inside the comparison of `Square` with `Shape`.
      index.membersOf "Dot" = .error ⟨"Dot", .unavailable⟩ ∧
      index.purged.membersOf "Dot" = .ok [] ∧
      ((r.run ctx).run (made ctx).2).1.erase = .verdict false ∧
      ((r.run ctx).run (made ctx).2).1.erase = ((r.run ctx').run (made ctx').2).1.erase := by
  intro index ctx ctx' made r
  have hmade : Session ctx .standard [] [.referenceAt "Square" 0, .referenceAt "Shape" 1]
      (made ctx).2 :=
    .make (.reference "Shape") (.make (.reference "Square") .start)
  have hmade' : Session ctx' .standard [] [.referenceAt "Square" 0, .referenceAt "Shape" 1]
      (made ctx').2 :=
    .make (.reference "Shape") (.make (.reference "Square") .start)
  have hr : r.Over [.referenceAt "Square" 0, .referenceAt "Shape" 1] := by
    simp [r, Request.Over, Request.mentions, Ty.classes]
  have hverdict : ((ctx.isSubtype (.cls (.referenceAt "Square" 0)) (.cls (.referenceAt "Shape" 1))
      true).run (made ctx).2).1 = false := by
    decide +kernel
  refine ⟨rfl, ?_, congrArg Answer.verdict hverdict, ?_⟩
  . rw [Index.membersOf_purged]
    rfl
  . exact answer_eq_answer_purged index {} .project .standard hmade hmade' hr hr rfl rfl

end LuaClasses
