import LuaClasses.Proofs.Coherence

/-!
This module contains what a query about a class depends on. The query asks for the class, and from
then on the class is seen as one that was declared. Whatever the cells hold, the answer is a
function of the class as it is seen, and the query does to cells and guard what settling the class
does.
-/

namespace LuaClasses

/--
States that differ in their records only.
-/
structure QueryState.Alike (s s' : QueryState) : Prop where
  cell_eq : ∀ n, s'.cell n = s.cell n
  cellCount_eq : s'.cellCount = s.cellCount
  guard_eq : s'.guard = s.guard

namespace QueryState.Alike

variable {s s' s'' : QueryState}

theorem refl (s : QueryState) : s.Alike s :=
  ⟨fun _ => rfl, rfl, rfl⟩

theorem trans (h : s.Alike s') (h' : s'.Alike s'') : s.Alike s'' :=
  ⟨fun n => (h'.cell_eq n).trans (h.cell_eq n), h'.cellCount_eq.trans h.cellCount_eq,
    h'.guard_eq.trans h.guard_eq⟩

end QueryState.Alike

namespace Query

/--
In every state the query answers `a`, and it does nothing but keep records.
-/
def Finds (q : Query α) (a : α) : Prop :=
  ∀ s, (q.run s).1 = a ∧ s.Alike (q.run s).2

namespace Finds

theorem pure (a : α) : Finds (Pure.pure a) a :=
  fun s => ⟨rfl, .refl s⟩

theorem bind {q : Query α} {f : α → Query β} {a : α} {b : β} (hq : Finds q a)
    (hf : Finds (f a) b)
    : Finds (q >>= f) b := by
  intro s
  rcases hq s with ⟨ha, halike⟩
  rw [Query.run_bind, ha]
  rcases hf (q.run s).2 with ⟨hb, halike'⟩
  exact ⟨hb, halike.trans halike'⟩

theorem run_bind {x : StateT σ Query α} {f : α → StateT σ Query β} {state state' : σ} {a : α}
    {b : β × σ} (hx : Finds (x.run state) (a, state')) (hf : Finds ((f a).run state') b)
    : Finds ((x >>= f).run state) b := by
  rw [StateT.run_bind]
  exact bind hx hf

theorem run_lift {q : Query α} {a : α} (hq : Finds q a) (state : σ)
    : Finds ((liftM q : StateT σ Query α).run state) (a, state) := by
  rw [StateT.run_monadLift]
  exact bind hq (pure _)

theorem note (e : Event) : Finds (Query.note e) () :=
  fun _ => ⟨rfl, fun _ => rfl, rfl, rfl⟩

theorem answers {ctx : Context} {w : World} {q : Query α} {a : α} (h : Finds q a)
    : Answers ctx w q a := by
  intro s hs
  rcases h s with ⟨ha, halike⟩
  exact ⟨ha, hs.of_eq halike.cell_eq halike.cellCount_eq, halike.guard_eq⟩

end Finds

end Query

namespace Class

/--
The class with this header in place of what the index was to be asked for.
-/
def seenAs (c : Class) (header : Header) : Class :=
  if c.origin.cell?.isSome then { c with origin := .declared header } else c

theorem similar_seenAs (c : Class) (header : Header) : c.Similar (c.seenAs header) := by
  rcases c with ⟨name, varName, flags, origin⟩
  cases origin <;> exact ⟨rfl, rfl, rfl, rfl⟩

theorem seenAs_of_cell?_eq_none {c : Class} (h : c.origin.cell? = none) (header : Header)
    : c.seenAs header = c := by
  simp [seenAs, h]

end Class

namespace Context

open Query

/--
The class as it is seen in a state.
-/
def sight (ctx : Context) (c : Class) (s : QueryState) : Class :=
  c.seenAs ((ctx.headerOf c).run s).1

/--
The class with what is known of it once the index has been asked.
-/
def settled (ctx : Context) (c : Class) : Class :=
  c.seenAs (ctx.knownHeader c)

/--
Where the class `c` has been settled and is seen as `d`, the query answers `a` and does nothing but
keep records.
-/
def Knows (ctx : Context) (c d : Class) (q : Query α) (a : α) : Prop :=
  ∀ s, s.Settled c → ctx.sight c s = d → (q.run s).1 = a ∧ s.Alike (q.run s).2

/--
The query answers `f` of the class as it is seen. Apart from records, it does what settling the
class does.
-/
def Reads (ctx : Context) (c : Class) (q : Query α) (f : Class → α) : Prop :=
  ∀ s, (q.run s).1 = f (ctx.sight c s) ∧ ((ctx.settle c).run s).2.Alike (q.run s).2

variable {ctx : Context} {c d : Class}

theorem alike_settled (ctx : Context) (c : Class) : ctx.Alike (ctx.settled c) c := by
  rcases c with ⟨name, varName, flags, origin⟩
  cases origin <;> exact ⟨⟨rfl, rfl, rfl, rfl⟩, rfl⟩

theorem knownHeader_seenAs (h : c.origin.cell?.isSome = true) (header : Header)
    : ctx.knownHeader (c.seenAs header) = header := by
  unfold Class.seenAs
  rw [if_pos h]
  rfl

theorem sight_of_settled {s : QueryState} (h : s.Settled c)
    : ctx.sight c s = c.seenAs (c.header.run s).1 := by
  unfold sight headerOf
  rw [run_bind, settle_run_of_settled h]

/--
A class that has been settled is seen as it was when it was settled.
-/
theorem sight_of_alike [ctx.Quiet] {s s' : QueryState}
    (h : ((ctx.settle c).run s).2.Alike s')
    : s'.Settled c ∧ ctx.sight c s' = ctx.sight c s := by
  have hsettled : s'.Settled c := by
    intro n hcell
    rw [h.cell_eq]
    exact ctx.settled_settle c s n hcell
  have hcell : (c.cell.run s').1 = (c.cell.run ((ctx.settle c).run s).2).1 := by
    unfold Class.cell
    cases c.origin.cell? with
    | none => rfl
    | some n => exact h.cell_eq n
  refine ⟨hsettled, ?_⟩
  rw [sight_of_settled hsettled, Class.header_congr hcell]
  rfl

namespace Knows

variable [ctx.Quiet]

theorem bind {q : Query α} {f : α → Query β} {a : α} {b : β} (hq : ctx.Knows c d q a)
    (hf : ctx.Knows c d (f a) b)
    : ctx.Knows c d (q >>= f) b := by
  intro s hs hsight
  rcases hq s hs hsight with ⟨ha, halike⟩
  have hsettle : ((ctx.settle c).run s).2.Alike (q.run s).2 := by
    rwa [settle_run_of_settled hs]
  rcases sight_of_alike hsettle with ⟨hs', hsight'⟩
  rw [Query.run_bind, ha]
  rcases hf _ hs' (hsight'.trans hsight) with ⟨hb, halike'⟩
  exact ⟨hb, halike.trans halike'⟩

theorem run_bind {x : StateT σ Query α} {f : α → StateT σ Query β} {state state' : σ} {a : α}
    {b : β × σ} (hx : ctx.Knows c d (x.run state) (a, state'))
    (hf : ctx.Knows c d ((f a).run state') b)
    : ctx.Knows c d ((x >>= f).run state) b := by
  rw [StateT.run_bind]
  exact bind hx hf

end Knows

end Context

theorem Query.Finds.knows {ctx : Context} {c d : Class} {q : Query α} {a : α} (h : Finds q a)
    : ctx.Knows c d q a :=
  fun s _ _ => h s

namespace Context

open Query

variable {ctx : Context} {c : Class}

namespace Reads

variable {q : Query α} {f : Class → α}

theorem knows (h : ctx.Reads c q f) (d : Class) : ctx.Knows c d q (f d) := by
  intro s hs hsight
  rcases h s with ⟨ha, halike⟩
  rw [hsight] at ha
  rw [settle_run_of_settled hs] at halike
  exact ⟨ha, halike⟩

theorem finds (h : ctx.Reads c q f) (hc : c.origin.cell? = none) : Finds q (f c) := by
  intro s
  have hs : s.Settled c := by
    intro n hcell
    rw [hc] at hcell
    cases hcell
  exact h.knows c s hs (Class.seenAs_of_cell?_eq_none hc _)

theorem bind [ctx.Quiet] {k : α → Query β} {g : Class → β} (hq : ctx.Reads c q f)
    (hk : ∀ d, c.Similar d → ctx.Knows c d (k (f d)) (g d))
    : ctx.Reads c (q >>= k) g := by
  intro s
  rcases hq s with ⟨ha, halike⟩
  rcases sight_of_alike halike with ⟨hs', hsight⟩
  rw [Query.run_bind, ha]
  rcases hk _ (c.similar_seenAs _) _ hs' hsight with ⟨hb, halike'⟩
  exact ⟨hb, halike.trans halike'⟩

theorem run_bind [ctx.Quiet] {x : StateT σ Query α} {k : α → StateT σ Query β} {state : σ}
    {f : Class → α × σ} {g : Class → β × σ} (hx : ctx.Reads c (x.run state) f)
    (hk : ∀ d, c.Similar d → ctx.Knows c d ((k (f d).1).run (f d).2) (g d))
    : ctx.Reads c ((x >>= k).run state) g := by
  rw [StateT.run_bind]
  exact bind hx hk

theorem lift_bind [ctx.Quiet] {k : α → StateT σ Query β} {g : Class → β × σ} {state : σ}
    (hq : ctx.Reads c q f)
    (hk : ∀ d, c.Similar d → ctx.Knows c d ((k (f d)).run state) (g d))
    : ctx.Reads c ((liftM q >>= k : StateT σ Query β).run state) g := by
  rw [StateT.run_bind, StateT.run_monadLift, bind_assoc]
  apply bind hq
  intro d hd
  rw [pure_bind]
  exact hk d hd

theorem answers [ctx.Quiet] {w : World} (h : ctx.Reads c q f) (hc : c.Known w)
    (hf : f (ctx.settled c) = f c)
    : Answers ctx w q (f c) := by
  intro s hs
  rcases h s with ⟨ha, halike⟩
  rcases settle_run hc hs with ⟨hs', hguard, _⟩
  have hsight : ctx.sight c s = ctx.settled c :=
    congrArg c.seenAs (headerOf_answers hc s hs).1
  rw [hsight, hf] at ha
  exact ⟨ha, hs'.of_eq halike.cell_eq halike.cellCount_eq, halike.guard_eq.trans hguard⟩

end Reads

section Primitives

variable [ctx.Quiet]

omit [ctx.Quiet] in
theorem settle_reads (c : Class) : ctx.Reads c (ctx.settle c) fun _ => () :=
  fun _ => ⟨rfl, .refl _⟩

omit [ctx.Quiet] in
theorem header_finds (ctx : Context) {c : Class} (hc : c.origin.cell? = none)
    : Finds c.header (ctx.knownHeader c) := by
  rw [knownHeader_of_cell?_eq_none hc]
  unfold Class.header Class.cell
  rw [hc]
  exact Finds.bind (Finds.pure _) (Finds.pure _)

omit [ctx.Quiet] in
theorem headerOf_reads (c : Class) : ctx.Reads c (ctx.headerOf c) ctx.knownHeader := by
  intro s
  constructor
  . cases hcell : c.origin.cell? with
    | none =>
      unfold sight
      rw [Class.seenAs_of_cell?_eq_none hcell]
      exact (ctx.header_finds hcell _).1
    | some n => exact (knownHeader_seenAs (by rw [hcell]; rfl) _).symm
  . unfold headerOf
    rw [run_bind, Class.header_run]
    exact .refl _

theorem ask_finds (l : Lookup) (absent : α) (answer : Except IndexError α)
    : Finds (ctx.ask l absent answer) (answer.toOption.getD absent) := by
  intro s
  rcases ctx.ask_run l absent answer s with ⟨hanswer, hcells, hcount, hguard⟩
  exact ⟨hanswer, fun n => by simp only [QueryState.cell, hcells], hcount, hguard⟩

theorem resolve_finds (name : String) : Finds (ctx.resolve name) (ctx.declared? name) := by
  have hmap : ctx.declared? name
      = ((ctx.index.findClass name).toOption.getD none).map Class.ofDecl := by
    simp [findClass_eq, declared?, Function.comp_def]
  rw [hmap]
  exact Finds.bind (ask_finds _ _ _) (Finds.pure _)

theorem membersOf_finds (name : String) : Finds (ctx.membersOf name) (ctx.membersAt name) := by
  apply ask_finds

theorem findMember_finds (owner name : String)
    : Finds (ctx.findMember owner name) (ctx.memberAt? owner name) := by
  apply ask_finds

theorem findAlias_finds (name : String) : Finds (ctx.findAlias name) (ctx.aliasAt? name) := by
  apply ask_finds

theorem inheritsFrom_finds (candidate base : String)
    : Finds (ctx.inheritsFrom candidate base)
        (ctx.index.inheritsFrom ctx.scope candidate base) := by
  unfold inheritsFrom
  rw [Quiet.observe_eq]
  exact Finds.bind (Finds.pure ()) (Finds.pure _)

end Primitives

end Context

end LuaClasses
