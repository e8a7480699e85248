import LuaClasses.Proofs.Lineage

/-!
This module contains the members of a class as lists and look-ups over the lineage, and shows that
the queries for members answer with them.
-/

namespace LuaClasses

namespace Context

/--
The alternate names of a class, if its declaration gives it the name `other?`.
-/
def namesBeside (ctx : Context) (c : Class) (other? : Option String) : List String :=
  match other? with
  | none => []
  | some other =>
    if other = c.name then []
    else if c.isAnonymous || c.isGlobal || !ctx.options.globalNamesAsTypes then [other]
    else [other, Identity.globalType c.name]

def otherNames (ctx : Context) (c : Class) : List String :=
  ctx.namesBeside c (ctx.knownHeader c).aliasName

theorem alternateNames_eq (ctx : Context) (c : Class)
    : ctx.alternateNames c = do return ctx.namesBeside c (← ctx.headerOf c).aliasName := by
  unfold alternateNames namesBeside
  congr
  funext header
  cases header.aliasName with
  | none => rfl
  | some other =>
    dsimp only
    split
    . rfl
    . split <;> rfl

theorem namesBeside_of_similar (ctx : Context) {c d : Class} (h : c.Similar d)
    (other? : Option String)
    : ctx.namesBeside c other? = ctx.namesBeside d other? := by
  unfold namesBeside Class.isAnonymous Class.isGlobal
  rw [h.name_eq, h.flags_eq]

def ownMemberList (ctx : Context) (c : Class) : List Member :=
  (c.origin.fields?).getD (ctx.membersAt c.name) ++ (ctx.otherNames c).flatMap ctx.membersAt

/--
The members of a class that is seen as `d`, each with the class that has it.
-/
def memberPairsAs (ctx : Context) (c d : Class) (deep : Bool) : List (Class × Member) :=
  (ctx.ownMemberList d).map (c, ·) ++
    if deep then (ctx.lineage d).flatMap fun a => (ctx.ownMemberList a).map (a, ·) else []

def memberPairs (ctx : Context) (c : Class) (deep : Bool) : List (Class × Member) :=
  ctx.memberPairsAs c c deep

/--
Whether code inside the class `viewer` may use a member that was found in `owner`.
-/
def usable (ctx : Context) (viewer owner : Class) (m : Member) : Bool :=
  match m.visibility with
  | .pub => true
  | .prot => owner == viewer || ctx.index.inheritsFrom ctx.scope viewer.name owner.name
  | .priv => false

def hiddenNames (ctx : Context) (viewer : Class) (pairs : List (Class × Member)) : List String :=
  (pairs.filter fun p => !ctx.usable viewer p.1 p.2).flatMap fun p => p.2.name.toList

def visibleAmong (ctx : Context) (viewer : Class) (pairs : List (Class × Member)) :
    List (Class × Member) :=
  (pairs.filter fun p => ctx.usable viewer p.1 p.2).filter fun p =>
    !p.2.name.any (ctx.hiddenNames viewer pairs).contains

/--
The members of a class that code inside the class `viewer` sees.
-/
def visiblePairs (ctx : Context) (c viewer : Class) : List (Class × Member) :=
  ctx.visibleAmong viewer (ctx.memberPairs c true)

def ownMember? (ctx : Context) (c : Class) (name : String) : Option Member :=
  let direct : Option Member := match c.origin.fields? with
    | some fields => fields.find? (·.isNamed name)
    | none => ctx.memberAt? c.name name
  direct.or ((ctx.otherNames c).findSome? (ctx.memberAt? · name))

/--
The first member of a name that a class or one of its ancestors has itself.
-/
def member? (ctx : Context) (c : Class) (name : String) : Option Member :=
  (ctx.ownMember? c name).or ((ctx.lineage c).findSome? (ctx.ownMember? · name))

/--
The member that gives the type of an access to a class by a key.
-/
def keyMember? (ctx : Context) (c : Class) (key : Key) : Option Member :=
  match key with
  | .number text =>
    (ctx.member? c (Identity.numberKey text)).or (ctx.member? c Identity.anyNumberKey)
  | .string text => (ctx.member? c text).or (ctx.member? c Identity.anyStringKey)
  | .other => none

namespace Alike

variable {ctx : Context} {c d : Class} (h : ctx.Alike c d)

include h

theorem otherNames_eq : ctx.otherNames c = ctx.otherNames d := by
  unfold otherNames namesBeside Class.isAnonymous Class.isGlobal
  rw [h.knownHeader_eq, h.name_eq, h.flags_eq]

theorem ownMemberList_eq : ctx.ownMemberList c = ctx.ownMemberList d := by
  unfold ownMemberList
  rw [h.fields?_eq, h.name_eq, h.otherNames_eq]

theorem ownMember?_eq (name : String) : ctx.ownMember? c name = ctx.ownMember? d name := by
  unfold ownMember?
  rw [h.fields?_eq, h.name_eq, h.otherNames_eq]

theorem member?_eq (name : String) : ctx.member? c name = ctx.member? d name := by
  unfold member?
  rw [h.ownMember?_eq, h.lineage_eq]

theorem keyMember?_eq (key : Key) : ctx.keyMember? c key = ctx.keyMember? d key := by
  unfold keyMember?
  simp only [h.member?_eq]

theorem memberPairsAs_eq (a : Class) (deep : Bool)
    : ctx.memberPairsAs a c deep = ctx.memberPairsAs a d deep := by
  unfold memberPairsAs
  rw [h.ownMemberList_eq, h.lineage_eq]

theorem memberPairs_map_eq {f : Class → Class} (hf : f c = f d) (deep : Bool)
    : (ctx.memberPairs c deep).map (Prod.map f id)
        =
      (ctx.memberPairs d deep).map (Prod.map f id) := by
  have hown : ∀ ms : List Member,
      (ms.map (c, ·)).map (Prod.map f id) = (ms.map (d, ·)).map (Prod.map f id) := by
    simp [hf]
  unfold memberPairs
  rw [h.memberPairsAs_eq]
  unfold memberPairsAs
  rw [List.map_append, List.map_append, hown]

end Alike

section Owners

variable {ctx : Context} {f : Class → Class} (hname : ∀ c, (f c).name = c.name)
  (hflags : ∀ c, (f c).flags = c.flags)

include hname hflags

theorem usable_map (viewer owner : Class) (m : Member)
    : ctx.usable (f viewer) (f owner) m = ctx.usable viewer owner m := by
  unfold usable
  rw [Class.beq_def, Class.beq_def, hname, hname, hflags, hflags]

theorem hiddenNames_map (viewer : Class) (pairs : List (Class × Member))
    : ctx.hiddenNames (f viewer) (pairs.map (Prod.map f id)) = ctx.hiddenNames viewer pairs := by
  simp [hiddenNames, List.filter_map, List.flatMap_map, usable_map hname hflags, Function.comp_def]

theorem visiblePairs_map (c viewer : Class)
    : (ctx.visiblePairs c viewer).map (Prod.map f id)
        =
      (((ctx.memberPairs c true).map (Prod.map f id)).filter fun p =>
        ctx.usable (f viewer) p.1 p.2).filter fun p =>
          !p.2.name.any (ctx.hiddenNames (f viewer)
            ((ctx.memberPairs c true).map (Prod.map f id))).contains := by
  rw [hiddenNames_map hname hflags]
  simp [visiblePairs, visibleAmong, List.filter_map, usable_map hname hflags, Function.comp_def]

theorem Alike.visiblePairs_map_eq {c d viewer viewer' : Class} (h : ctx.Alike c d) (hf : f c = f d)
    (hviewer : f viewer = f viewer')
    : (ctx.visiblePairs c viewer).map (Prod.map f id)
        =
      (ctx.visiblePairs d viewer').map (Prod.map f id) := by
  rw [visiblePairs_map hname hflags, visiblePairs_map hname hflags, h.memberPairs_map_eq hf,
    hviewer]

end Owners

def erasePair (p : Class × Member) : Class × Member :=
  (p.1.erase, p.2)

theorem visitAll_findSome? (g : Class → Option Member) (cs : List Class)
    : (visitAll (fun c found =>
          match found with
          | some m => (false, some m)
          | none => ((g c).isNone, g c)) cs none).2
        =
      cs.findSome? g := by
  induction cs with
  | nil => rfl
  | cons c cs ih =>
    rw [List.findSome?_cons]
    cases hc : g c with
    | none => simpa [visitAll, hc] using ih
    | some m => simp [visitAll, hc]

open Query

variable {ctx : Context} [ctx.Quiet]

theorem alternateNames_reads (c : Class) : ctx.Reads c (ctx.alternateNames c) ctx.otherNames := by
  rw [alternateNames_eq]
  apply (headerOf_reads c).bind
  intro d hd
  rw [ctx.namesBeside_of_similar hd]
  exact (Finds.pure _).knows

theorem membersOfAll_finds (names : List String)
    : Finds (ctx.membersOfAll names) (names.flatMap ctx.membersAt) := by
  induction names with
  | nil => exact Finds.pure []
  | cons name rest ih =>
    rw [List.flatMap_cons]
    exact Finds.bind (membersOf_finds name) (Finds.bind ih (Finds.pure _))

theorem ownMembers_reads (c : Class) : ctx.Reads c (ctx.ownMembers c) ctx.ownMemberList := by
  apply (settle_reads c).bind
  intro d hd
  have hrest : ∀ own, ctx.Knows c d
      (do
        let alternate ← ctx.membersOfAll (← ctx.alternateNames c)
        return own ++ alternate)
      (own ++ (ctx.otherNames d).flatMap ctx.membersAt) := by
    intro own
    apply Knows.bind ((alternateNames_reads c).knows d)
    exact Knows.bind (membersOfAll_finds _).knows (Finds.pure _).knows
  unfold ownMemberList
  rw [← hd.fields?_eq, ← hd.name_eq]
  cases c.origin.fields? with
  | none => exact Knows.bind (membersOf_finds _).knows (hrest _)
  | some fields => exact hrest fields

theorem findMemberIn_finds (name : String) (owners : List String)
    : Finds (ctx.findMemberIn name owners) (owners.findSome? (ctx.memberAt? · name)) := by
  induction owners with
  | nil => exact Finds.pure none
  | cons owner rest ih =>
    rw [List.findSome?_cons]
    apply Finds.bind (findMember_finds owner name)
    cases ctx.memberAt? owner name with
    | none => exact ih
    | some m => exact Finds.pure _

theorem findOwnMember_reads (c : Class) (name : String)
    : ctx.Reads c (ctx.findOwnMember c name) (ctx.ownMember? · name) := by
  apply (settle_reads c).bind
  intro d hd
  have hrest : ∀ own : Option Member, ctx.Knows c d
      (match own with
        | some m => return some m
        | none => do ctx.findMemberIn name (← ctx.alternateNames c))
      (own.or ((ctx.otherNames d).findSome? (ctx.memberAt? · name))) := by
    intro own
    cases own with
    | some m => exact (Finds.pure _).knows
    | none =>
      exact Knows.bind ((alternateNames_reads c).knows d) (findMemberIn_finds name _).knows
  unfold ownMember?
  rw [← hd.fields?_eq, ← hd.name_eq]
  cases c.origin.fields? with
  | none => exact Knows.bind (findMember_finds _ name).knows (hrest _)
  | some fields => exact hrest _

theorem findInheritedMember_reads (c : Class) (name : String)
    : ctx.Reads c (ctx.findInheritedMember c name)
        fun d => (ctx.lineage d).findSome? (ctx.ownMember? · name) := by
  simp only [← visitAll_findSome?]
  apply walkAncestors_state_reads _ _ c none
  . intro a found ha
    apply Finds.run_bind (a := found) (Finds.pure _)
    cases found with
    | some m => exact Finds.pure _
    | none =>
      have hown : Finds (ctx.findOwnMember a name) (ctx.ownMember? a name) :=
        (findOwnMember_reads a name).finds ha
      apply Finds.run_bind (Finds.run_lift hown none)
      exact Finds.pure _
  . intro a b found hrefused
    cases found with
    | some m => rfl
    | none =>
      cases hm : ctx.ownMember? a name with
      | none => simp [hm] at hrefused
      | some m => rfl

theorem findMemberOf_reads (c : Class) (name : String)
    : ctx.Reads c (ctx.findMemberOf c name) (ctx.member? · name) := by
  apply (findOwnMember_reads c name).bind
  intro d _
  unfold member?
  cases ctx.ownMember? d name with
  | some m => exact (Finds.pure _).knows
  | none => exact (findInheritedMember_reads c name).knows d

theorem findEither_reads (c : Class) (exact general : String)
    : ctx.Reads c (ctx.findEither c exact general)
        fun d => (ctx.member? d exact).or (ctx.member? d general) := by
  apply (findMemberOf_reads c exact).bind
  intro d _
  cases ctx.member? d exact with
  | some m => apply (Finds.pure _).knows
  | none => apply (findMemberOf_reads c general).knows d

section Visit

variable {visit : Class → Member → StateT σ Query Unit} {g : Class → Member → σ → σ}
  (hvisit : ∀ a m state, Finds ((visit a m).run state) ((), g a m state))

include hvisit in
theorem visitOwnMembers_reads (c : Class) (state : σ)
    : ctx.Reads c ((ctx.visitOwnMembers c visit).run state)
        fun d => ((), (ctx.ownMemberList d).foldl (fun state m => g c m state) state) := by
  apply (ownMembers_reads c).lift_bind
  intro d _
  apply Finds.knows
  generalize ctx.ownMemberList d = members
  induction members generalizing state with
  | nil => exact Finds.pure _
  | cons m rest ih => exact Finds.run_bind (hvisit c m state) (ih _)

include hvisit in
theorem visitMembers_reads (c : Class) (deep : Bool) (state : σ)
    : ctx.Reads c ((ctx.visitMembers c deep visit).run state)
        fun d =>
          ((), (ctx.memberPairsAs c d deep).foldl (fun state p => g p.1 p.2 state) state) := by
  apply (visitOwnMembers_reads hvisit c state).run_bind
  intro d _
  unfold memberPairsAs
  rw [List.foldl_append, List.foldl_map]
  generalize (ctx.ownMemberList d).foldl (fun state m => g c m state) state = state
  cases deep with
  | false => exact (Finds.pure _).knows
  | true =>
    let f : Class → σ → Bool × σ := fun a state =>
      (true, (ctx.ownMemberList a).foldl (fun state m => g a m state) state)
    have hf : ∀ a state, a.origin.cell? = none → Finds
        ((do ctx.visitOwnMembers a visit; return true : StateT σ Query Bool).run state)
        (f a state) := by
      intro a state ha
      exact Finds.run_bind ((visitOwnMembers_reads hvisit a state).finds ha) (Finds.pure _)
    have hsnd : (ctx.walk f d state).2
        = ((ctx.lineage d).flatMap fun a => (ctx.ownMemberList a).map (a, ·)).foldl
            (fun state p => g p.1 p.2 state) state := by
      rw [walk_snd f (by simp [f]), visitAll_foldl]
      simp only [List.foldl_flatMap, List.foldl_map]
    rw [if_pos rfl, if_pos rfl, ← hsnd]
    exact Knows.run_bind ((walkAncestors_reads hf c state).knows d) (Finds.pure ((), _)).knows

end Visit

theorem members_reads (c : Class) (deep : Bool)
    : ctx.Reads c (ctx.members c deep) (ctx.memberPairsAs c · deep) := by
  apply (visitMembers_reads (fun _ _ _ => Finds.pure _) c deep []).bind
  intro d _
  have hfold : (ctx.memberPairsAs c d deep).foldl (fun pairs p => pairs ++ [(p.1, p.2)]) []
      = ctx.memberPairsAs c d deep := by
    simp [← List.flatMap_def]
  rw [hfold]
  exact (Finds.pure _).knows

theorem canUse_finds (viewer owner : Class) (m : Member)
    : Finds (ctx.canUse viewer owner m) (ctx.usable viewer owner m) := by
  unfold canUse usable
  cases m.visibility with
  | pub => exact Finds.pure true
  | priv => exact Finds.pure false
  | prot =>
    dsimp only
    cases owner == viewer with
    | true => exact Finds.pure true
    | false => exact inheritsFrom_finds _ _

omit [ctx.Quiet] in
theorem foldl_sort (viewer : Class) (pairs visible : List (Class × Member)) (hidden : List String)
    : pairs.foldl (fun (visible, hidden) p =>
          if ctx.usable viewer p.1 p.2 then (visible ++ [(p.1, p.2)], hidden)
          else (visible, hidden ++ p.2.name.toList)) (visible, hidden)
        =
      (visible ++ pairs.filter (fun p => ctx.usable viewer p.1 p.2),
        hidden ++ ctx.hiddenNames viewer pairs) := by
  induction pairs generalizing visible hidden with
  | nil => simp [hiddenNames]
  | cons p rest ih =>
    rw [List.foldl_cons]
    cases hp : ctx.usable viewer p.1 p.2 with
    | true => simp [ih, hp, hiddenNames]
    | false => simp [ih, hp, hiddenNames]

theorem visibleMembers_reads (c viewer : Class)
    : ctx.Reads c (ctx.visibleMembers c viewer)
        fun d => ctx.visibleAmong viewer (ctx.memberPairsAs c d true) := by
  let g : Class → Member → List (Class × Member) × List String →
      List (Class × Member) × List String := fun a m (visible, hidden) =>
    if ctx.usable viewer a m then (visible ++ [(a, m)], hidden)
    else (visible, hidden ++ m.name.toList)
  have hsort := fun d => ctx.foldl_sort viewer (ctx.memberPairsAs c d true) [] []
  unfold visibleMembers
  apply Reads.bind (f := fun d =>
    ((), (ctx.memberPairsAs c d true).foldl (fun st p => g p.1 p.2 st) ([], [])))
  . apply visitMembers_reads
    intro a m state
    apply Finds.run_bind (Finds.run_lift (canUse_finds viewer a m) state)
    simp only [g]
    cases ctx.usable viewer a m with
    | true => exact Finds.pure _
    | false => exact Finds.pure _
  . intro d _
    simp only [g]
    rw [hsort]
    exact (Finds.pure _).knows

end Context

end LuaClasses
