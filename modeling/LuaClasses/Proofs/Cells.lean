import LuaClasses.Proofs.Making
import LuaClasses.Proofs.Sight

/-!
This module contains what queries do to cells, where cells may have been filled from an index that
has changed since. Whatever a query is about, it leaves each cell as it is, or fills a cell that was
as it was made with what the index answers now about the class that the cell was made for.
-/

namespace LuaClasses

/--
A state between two queries: no look-up is under way, and only cells of the world have been used.
-/
structure QueryState.AtRest (w : World) (s : QueryState) : Prop where
  cellCount_eq : s.cellCount = w.length
  ne_initializing : ∀ n, s.cell n ≠ .initializing
  cell_eq_of_le : ∀ n, w.length ≤ n → s.cell n = .uninitialized

/--
What may become of the cells while the index is that of the context.
-/
def QueryState.Evolves (ctx : Context) (w : World) (s s' : QueryState) : Prop :=
  ∀ n, s'.cell n = s.cell n ∨
    s.cell n = .uninitialized ∧
      ∃ name, w[n]? = some name ∧ s'.cell n = .ready (ctx.declaration? name)

namespace QueryState

variable {ctx : Context} {w w' : World} {s s' s'' : QueryState}

theorem fresh_atRest (limits : Limits) : (fresh limits).AtRest [] := by
  constructor
  . rfl
  . intro n
    simp [cell, fresh]
  . intro n _
    simp [cell, fresh]

namespace Evolves

theorem of_eq (hcell : ∀ n, s'.cell n = s.cell n) : s.Evolves ctx w s' :=
  fun n => .inl (hcell n)

theorem mono (h : s.Evolves ctx w s') (hw : w <+: w') : s.Evolves ctx w' s' := by
  intro n
  rcases h n with hsame | ⟨hun, name, hname, hready⟩
  . exact .inl hsame
  . exact .inr ⟨hun, name, World.getElem?_of_prefix hw hname, hready⟩

theorem trans (h : s.Evolves ctx w s') (h' : s'.Evolves ctx w s'') : s.Evolves ctx w s'' := by
  intro n
  rcases h n with hsame | ⟨hun, name, hname, hready⟩
  . rw [← hsame]
    exact h' n
  . rcases h' n with hsame' | ⟨hun', _⟩
    . exact .inr ⟨hun, name, hname, hsame'.trans hready⟩
    . rw [hready] at hun'
      cases hun'

theorem atRest (h : s.Evolves ctx w s') (hs : s.AtRest w) (hcount : s'.cellCount = s.cellCount)
    : s'.AtRest w := by
  constructor
  . rw [hcount, hs.cellCount_eq]
  . intro n
    rcases h n with hsame | ⟨_, name, _, hready⟩
    . rw [hsame]
      exact hs.ne_initializing n
    . rw [hready]
      exact nofun
  . intro n hn
    rcases h n with hsame | ⟨_, name, hname, _⟩
    . rw [hsame]
      exact hs.cell_eq_of_le n hn
    . rw [List.getElem?_eq_none hn] at hname
      cases hname

end Evolves

theorem AtRest.grow (hs : s.AtRest w) (hw : w <+: w') (hcell : ∀ n, s'.cell n = s.cell n)
    (hcount : s'.cellCount = w'.length)
    : s'.AtRest w' := by
  refine ⟨hcount, ?_, ?_⟩
  . intro n
    rw [hcell]
    exact hs.ne_initializing n
  . intro n hn
    rw [hcell]
    exact hs.cell_eq_of_le n (Nat.le_trans hw.length_le hn)

end QueryState

namespace Query

/--
From every state at rest the query comes to one, and what it answers is as it should be. On the way
it makes cells and fills cells.
-/
def Keeps (ctx : Context) (w : World) (q : Query α) (good : World → α → Prop) : Prop :=
  ∀ w' s, w <+: w' → s.AtRest w' →
    ∃ w'', w' <+: w'' ∧ (q.run s).2.AtRest w'' ∧ s.Evolves ctx w'' (q.run s).2 ∧
      good w'' (q.run s).1

/--
The query keeps to the cells that it may fill, whatever it answers.
-/
abbrev Safe (ctx : Context) (w : World) (q : Query α) : Prop :=
  Keeps ctx w q fun _ _ => True

namespace Keeps

variable {ctx : Context} {w : World} {good : World → α → Prop} {good' : World → β → Prop}

theorem mono {w' : World} {q : Query α} (h : Keeps ctx w q good) (hw : w <+: w')
    : Keeps ctx w' q good :=
  fun _ s hw' hs => h _ s (hw.trans hw') hs

theorem pure {a : α} (h : ∀ w', w <+: w' → good w' a) : Keeps ctx w (Pure.pure a) good :=
  fun w' _ hw hs => ⟨w', List.prefix_refl w', hs, .of_eq fun _ => rfl, h w' hw⟩

theorem weaken {q : Query α} {better : World → α → Prop} (hq : Keeps ctx w q better)
    (h : ∀ w' a, better w' a → good w' a)
    : Keeps ctx w q good := by
  intro w' s hw hs
  rcases hq w' s hw hs with ⟨w'', hw'', hs', hevolves, hanswer⟩
  exact ⟨w'', hw'', hs', hevolves, h w'' _ hanswer⟩

theorem bind {q : Query α} {f : α → Query β} (hq : Keeps ctx w q good)
    (hf : ∀ w' a, w <+: w' → good w' a → Keeps ctx w' (f a) good')
    : Keeps ctx w (q >>= f) good' := by
  intro w₁ s hw₁ hs
  rcases hq w₁ s hw₁ hs with ⟨w₂, hw₂, hs₂, hevolves, hanswer⟩
  rcases hf w₂ _ (hw₁.trans hw₂) hanswer w₂ _ (List.prefix_refl w₂) hs₂ with
    ⟨w₃, hw₃, hs₃, hevolves', hanswer'⟩
  exact ⟨w₃, hw₂.trans hw₃, hs₃, (hevolves.mono hw₃).trans hevolves', hanswer'⟩

/--
What follows may not depend on the answer.
-/
theorem andThen {q : Query α} {f : α → Query β} (hq : Keeps ctx w q good)
    (hf : ∀ a, Keeps ctx w (f a) good')
    : Keeps ctx w (q >>= f) good' :=
  hq.bind fun _ a hw _ => (hf a).mono hw

/--
A query that does not write to cells and makes none.
-/
theorem of_eq {q : Query α}
    (h : ∀ s, (∀ n, (q.run s).2.cell n = s.cell n) ∧ (q.run s).2.cellCount = s.cellCount)
    : Safe ctx w q := by
  intro w' s _ hs
  rcases h s with ⟨hcell, hcount⟩
  have hevolves : s.Evolves ctx w' (q.run s).2 := .of_eq hcell
  exact ⟨w', List.prefix_refl w', hevolves.atRest hs hcount, hevolves, trivial⟩

theorem silent (a : α) : Safe ctx w (Pure.pure a) :=
  pure fun _ _ => trivial

theorem of_makes {q : Query α} (hq : Makes w q good) : Keeps ctx w q good := by
  intro w' s hw hs
  rcases hq w' s hw hs.cellCount_eq with ⟨w'', hw'', hcount, hcell, _, hanswer⟩
  exact ⟨w'', hw'', hs.grow hw'' hcell hcount, .of_eq hcell, hanswer⟩

theorem of_finds {q : Query α} {a : α} (hq : Finds q a) (h : ∀ w', w <+: w' → good w' a)
    : Keeps ctx w q good := by
  intro w' s hw hs
  rcases hq s with ⟨rfl, halike⟩
  have hevolves : s.Evolves ctx w' (q.run s).2 := .of_eq halike.cell_eq
  exact ⟨w', List.prefix_refl w', hevolves.atRest hs halike.cellCount_eq, hevolves, h w' hw⟩

theorem safe_of_finds {q : Query α} {a : α} (hq : Finds q a) : Safe ctx w q :=
  of_finds hq fun _ _ => trivial

/--
The one place where cells are filled.
-/
theorem settle [ctx.Quiet] {c : Class} (hc : c.Known w) : Safe ctx w (ctx.settle c) := by
  intro w' s hw hs
  by_cases hsettled : s.Settled c
  . rw [Context.settle_run_of_settled hsettled]
    exact ⟨w', List.prefix_refl w', hs, .of_eq fun _ => rfl, trivial⟩
  . rcases Classical.not_forall.1 hsettled with ⟨n, hn⟩
    rcases Classical.not_imp.1 hn with ⟨hcell, hun⟩
    have hun := Classical.not_not.1 hun
    rcases ctx.settle_run_of_uninitialized hcell hun with ⟨hcells, hcount, _⟩
    have hevolves : s.Evolves ctx w' ((ctx.settle c).run s).2 := by
      intro k
      rw [hcells]
      split
      . next heq =>
        subst heq
        exact .inr ⟨hun, c.name, hc.mono hw n hcell, rfl⟩
      . exact .inl rfl
    exact ⟨w', List.prefix_refl w', hevolves.atRest hs hcount, hevolves, trivial⟩

theorem of_reads [ctx.Quiet] {c : Class} {q : Query α} {f : Class → α} (hq : ctx.Reads c q f)
    (hc : c.Known w) (h : ∀ w' d, w <+: w' → good w' (f d))
    : Keeps ctx w q good := by
  have hsettle : Safe ctx w (ctx.settle c) := settle hc
  intro w' s hw hs
  rcases hq s with ⟨hanswer, halike⟩
  rcases hsettle w' s hw hs with ⟨w'', hw'', hs', hevolves, _⟩
  have hsame : ((ctx.settle c).run s).2.Evolves ctx w'' (q.run s).2 := .of_eq halike.cell_eq
  refine ⟨w'', hw'', hsame.atRest hs' halike.cellCount_eq, hevolves.trans hsame, ?_⟩
  rw [hanswer]
  exact h w'' _ (hw.trans hw'')

theorem safe_of_reads [ctx.Quiet] {c : Class} {q : Query α} {f : Class → α}
    (hq : ctx.Reads c q f) (hc : c.Known w)
    : Safe ctx w q :=
  of_reads hq hc fun _ _ _ => trivial

end Keeps

end Query

end LuaClasses
