import LuaClasses.Proofs.Decision
import LuaClasses.Proofs.Unions
import LuaClasses.Proofs.Visibility

/-!
This module contains the proof that the lenient subtype check accepts whatever the strict one
accepts. The two checks may compare different classes in a different order, so they are not followed
side by side: both are about a relation, and one relation is part of the other.
-/

namespace LuaClasses

namespace Context

variable {ctx : Context} {R : Ty Class → Ty Class → Prop} {s t : Ty Class}

theorem Step.lenient (h : ctx.Step true R s t) : ctx.Step false R s t := by
  cases h with
  | same h => exact .same h
  | top h => exact .top h
  | wild _ h => cases h
  | each h => exact .each h
  | some hwild hunion ht h => exact .some hwild hunion ht h
  | table h => exact .table h
  | emptyTable h => exact .emptyTable h
  | ancestor h => exact .ancestor h
  | interface hd h => exact .interface hd h
  | arrayTable => exact .arrayTable
  | element h => exact .element h
  | params hbase hlength h => exact .params hbase hlength h
  | base hunion hgeneric h => exact .base hunion hgeneric h

theorem Related.lenient (h : ctx.Related true s t) : ctx.Related false s t := by
  rcases h with ⟨R, hR, hst⟩
  exact ⟨R, fun s t h => (hR s t h).lenient, hst⟩

end Context

/--
Whether a type is what an expression denotes, with classes of the pool.
-/
structure Ty.Denotes (pool : List Class) (e : TypeExpr) (t : Ty Class) : Prop where
  all_mem : t.All (· ∈ pool)
  erase_eq : t.erase = .lower e

theorem Ty.Denotes.mono {pool pool' : List Class} {e : TypeExpr} {t : Ty Class}
    (h : t.Denotes pool e) (hpool : pool ⊆ pool')
    : t.Denotes pool' e :=
  ⟨h.all_mem.imp fun _ hc => hpool hc, h.erase_eq⟩

/--
The state in which a new context starts: it has a guard of its own, and class values keep what they
were told.
-/
def QueryState.renewed (s : QueryState) (limits : Limits) : QueryState :=
  { s with guard := .new limits }

/--
Whether a limit has been hit by the end of the check of a pair of types.
-/
def QueryState.hitsLimit (s : QueryState) (ctx : Context) (strict : Bool)
    (source target : Ty Class) : Bool :=
  ((ctx.isSubtype source target strict).run s).2.guard.exceeded

namespace Stage

variable {index : Index} {σ : Stage}

/--
A type that is made from an expression is what the expression denotes.
-/
theorem denotes_made (h : σ.Within index) (e : TypeExpr)
    : (((Maker.type e).run σ.context).run σ.state).1.Denotes
        (σ.apply (.make (.type e))).pool e := by
  rcases h.coherent {} .project with ⟨w, _, hs⟩
  rcases ((Ty.ofExpr e).instantiate_makes w).yields w σ.state (List.prefix_refl w) hs with
    ⟨_, _, _, _, hmade⟩
  exact ⟨fun c hc => List.mem_append_right _ hc, hmade.erase_eq⟩

/--
In a new context, types of expressions that pass the check are related, and related ones pass it
unless a limit was hit.
-/
theorem Within.verdict (h : σ.Within index) (options : Options) (scope : Scope) (limits : Limits)
    {e e' : TypeExpr} {source target : Ty Class} (hsource : source.Denotes σ.pool e)
    (htarget : target.Denotes σ.pool e') (strict : Bool)
    : let ctx : Context := { index, options, scope }
      let s := σ.state.renewed limits
      (s.accepts ctx strict source target = true → ctx.Related strict (.lower e) (.lower e')) ∧
      (s.hitsLimit ctx strict source target = false → ctx.Related strict (.lower e) (.lower e') →
        s.accepts ctx strict source target = true) := by
  intro ctx s
  rcases h.coherent options scope with ⟨w, hknown, hs⟩
  have hs' : s.Coherent ctx w := hs.of_eq (fun _ => rfl) rfl
  rcases Context.isSubtype_mirrors (hsource.all_mem.imp hknown) (htarget.all_mem.imp hknown) strict
    w _ (List.prefix_refl w) hs' with ⟨_, _, _, hguard, hanswer⟩
  have hnew : s.guard.At limits [] := ⟨rfl, rfl, rfl⟩
  rw [hsource.erase_eq, htarget.erase_eq] at hguard hanswer
  have hverdict := Guarded.isSubtype_lower_decides ctx strict e e' _ hnew
  unfold QueryState.accepts QueryState.hitsLimit
  rw [hguard, hanswer]
  exact ⟨hverdict.sound, hverdict.complete⟩

end Stage

theorem accepts_leniently_of_strictly (index : Index) (options : Options) (scope : Scope)
    (limits limits' : Limits) {σ σ' : Stage} (h : σ.Within index) (h' : σ'.Within index)
    {e e' : TypeExpr} {source target source' target' : Ty Class}
    (hsource : source.Denotes σ.pool e) (htarget : target.Denotes σ.pool e')
    (hsource' : source'.Denotes σ'.pool e) (htarget' : target'.Denotes σ'.pool e')
    (hstrict : (σ.state.renewed limits).accepts { index, options, scope } true source target = true)
    (hlimit : (σ'.state.renewed limits').hitsLimit { index, options, scope } false source' target'
      = false)
    : (σ'.state.renewed limits').accepts { index, options, scope } false source' target' = true := by
  have hrelated := (h.verdict options scope limits hsource htarget true).1 hstrict
  exact (h'.verdict options scope limits' hsource' htarget' false).2 hlimit hrelated.lenient

theorem accepts_leniently_of_strictly_items
    : let ctx : Context := { index := .linked }
      let start := Stage.start .linked .standard
      let items := Maker.type (.array (.named "Item"))
      let nodes := Maker.type (.array (.union [.named "nil", .named "Node"]))
      let source := ((items.run start.context).run start.state).1
      let target := ((nodes.run start.context).run (start.apply (.make items)).state).1
      let made := (start.apply (.make items)).apply (.make nodes)
      let asked := made.apply (.ask (.request (.subtype source target true)))
      (made.state.renewed ⟨2, 2⟩).accepts ctx true source target = true ∧
      (asked.state.renewed ⟨3, 3⟩).hitsLimit ctx false source target = false ∧
      (asked.state.renewed ⟨3, 3⟩).accepts ctx false source target = true := by
  intro ctx start items nodes source target made asked
  have hstart : start.Within .linked := ⟨.standard, [], .nil, nofun⟩
  have hitems : (start.apply (.make items)).Within .linked :=
    ⟨.standard, [.make items], .cons trivial .nil, by simp⟩
  have hmade : made.Within .linked :=
    ⟨.standard, [.make items, .make nodes], .cons trivial (.cons trivial .nil), by simp⟩
  have hsource : source.Denotes made.pool (.array (.named "Item")) :=
    (Stage.denotes_made hstart _).mono (List.subset_append_left _ _)
  have htarget : target.Denotes made.pool (.array (.union [.named "nil", .named "Node"])) :=
    Stage.denotes_made hitems _
  have hover : (Operation.ask (.request (.subtype source target true))).Over made.pool := by
    intro c hc
    rcases List.mem_append.1 hc with hc | hc
    . exact hsource.all_mem c hc
    . exact htarget.all_mem c hc
  have hasked : asked.Within .linked :=
    ⟨.standard, [.make items, .make nodes, .ask (.request (.subtype source target true))],
      .cons trivial (.cons trivial (.cons hover .nil)), by simp⟩
  have hstrict : (made.state.renewed ⟨2, 2⟩).accepts ctx true source target = true := by
    decide +kernel
  have hlimit : (asked.state.renewed ⟨3, 3⟩).hitsLimit ctx false source target = false := by
    decide +kernel
  have hpool : made.pool ⊆ asked.pool := List.subset_append_left _ _
  exact ⟨hstrict, hlimit, accepts_leniently_of_strictly .linked {} .project ⟨2, 2⟩ ⟨3, 3⟩ hmade
    hasked hsource htarget (hsource.mono hpool) (htarget.mono hpool) hstrict hlimit⟩

end LuaClasses
