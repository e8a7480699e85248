import LuaClasses.Proofs.Coherence

/-!
This module contains the queries that make class values. A cell is made for a class that the index
is to be asked for, and nothing else happens to cells. So what is made belongs to a larger world, in
which the classes made before are still known.
-/

namespace LuaClasses

theorem QueryState.Coherent.grow {ctx : Context} {w w' : World} {s s' : QueryState}
    (h : s.Coherent ctx w) (hw : w <+: w') (hcell : ∀ n, s'.cell n = s.cell n)
    (hcount : s'.cellCount = w'.length)
    : s'.Coherent ctx w' := by
  refine ⟨hcount, ?_, ?_⟩
  . intro n name hn
    rw [hcell]
    by_cases hlt : n < w.length
    . rcases hw with ⟨rest, rfl⟩
      rw [List.getElem?_append_left hlt] at hn
      exact h.cell_eq n name hn
    . exact .inl (h.cell_eq_of_le n (by omega))
  . intro n hn
    rw [hcell]
    exact h.cell_eq_of_le n (Nat.le_trans hw.length_le hn)

namespace Query

/--
The query makes cells, does nothing else to cells and guard, and what it answers is as it should be.
-/
def Makes (w : World) (q : Query α) (good : World → α → Prop) : Prop :=
  ∀ w' s, w <+: w' → s.cellCount = w'.length →
    ∃ w'', w' <+: w'' ∧ (q.run s).2.cellCount = w''.length ∧
      (∀ n, (q.run s).2.cell n = s.cell n) ∧ (q.run s).2.guard = s.guard ∧ good w'' (q.run s).1

namespace Makes

variable {w : World} {good : World → α → Prop}

theorem pure {a : α} (h : ∀ w', w <+: w' → good w' a) : Makes w (Pure.pure a) good :=
  fun w' _ hw hs => ⟨w', List.prefix_refl w', hs, fun _ => rfl, rfl, h w' hw⟩

theorem bind {q : Query α} {f : α → Query β} {good' : World → β → Prop} (hq : Makes w q good)
    (hf : ∀ w' a, w <+: w' → good w' a → Makes w' (f a) good')
    : Makes w (q >>= f) good' := by
  intro w₁ s hw₁ hs
  rcases hq w₁ s hw₁ hs with ⟨w₂, hw₂, hcount, hcell, hguard, hanswer⟩
  rcases hf w₂ _ (hw₁.trans hw₂) hanswer w₂ _ (List.prefix_refl w₂) hcount with
    ⟨w₃, hw₃, hcount', hcell', hguard', hanswer'⟩
  exact ⟨w₃, hw₂.trans hw₃, hcount', fun n => (hcell' n).trans (hcell n), hguard'.trans hguard,
    hanswer'⟩

theorem weaken {q : Query α} {good' : World → α → Prop} (hq : Makes w q good)
    (h : ∀ w' a, good w' a → good' w' a)
    : Makes w q good' := by
  intro w' s hw hs
  rcases hq w' s hw hs with ⟨w'', hw'', hcount, hcell, hguard, hanswer⟩
  exact ⟨w'', hw'', hcount, hcell, hguard, h w'' _ hanswer⟩

theorem note (e : Event) : Makes w (Query.note e) fun _ _ => True :=
  fun w' _ _ hs => ⟨w', List.prefix_refl w', hs, fun _ => rfl, rfl, trivial⟩

theorem newCell (name : String) : Makes w Query.newCell fun w' n => w'[n]? = some name := by
  intro w' s _ hs
  refine ⟨w' ++ [name], List.prefix_append w' [name], ?_, fun _ => rfl, rfl, ?_⟩
  . change s.cellCount + 1 = (w' ++ [name]).length
    rw [hs, List.length_append, List.length_singleton]
  . change (w' ++ [name])[s.cellCount]? = some name
    rw [hs]
    simp

end Makes

end Query

namespace Ty

/--
Whether `u` is `t` with classes that the world knows.
-/
structure Instance (t : Ty String) (w : World) (u : Ty Class) : Prop where
  known : u.All (Class.Known w)
  erase_eq : u.erase = t.map Class.reference

theorem All.mono {w w' : World} {t : Ty Class} (h : t.All (Class.Known w)) (hw : w <+: w')
    : t.All (Class.Known w') :=
  h.imp fun _ hc => hc.mono hw

end Ty

open Query

section Make

variable {w : World}

theorem Class.ofName_makes (name : String)
    : Makes w (Class.ofName name) fun w' c => c.Known w' ∧ c.erase = .reference name := by
  apply Makes.bind (Makes.newCell name)
  intro w₁ n hw₁ hn
  apply Makes.pure
  intro w₂ hw₂
  exact ⟨(known_of_cell?_eq_some rfl hn).mono hw₂, rfl⟩

theorem Class.ofFields_makes (name : String) (varName superName aliasName : Option String)
    (flags : Flags)
    : Makes w (Class.ofFields name varName superName aliasName flags) fun w' c => c.Known w' := by
  unfold ofFields
  cases Identity.parseDocTable? name with
  | some place =>
    apply Makes.bind (Makes.note _)
    intro w₁ _ _ _
    exact Makes.pure fun _ _ => known_of_cell?_eq_none rfl
  | none =>
    apply Makes.bind (Makes.newCell name)
    intro w₁ n hw₁ hn
    apply Makes.pure
    intro w₂ hw₂
    exact (known_of_cell?_eq_some rfl hn).mono hw₂

theorem Ty.mapListM_makes {ts : List (Ty String)}
    (ih : ∀ t ∈ ts, ∀ w, Makes w t.instantiate t.Instance) (w : World)
    : Makes w (mapListM Class.ofName ts) fun w' us =>
        (∀ u ∈ us, u.All (Class.Known w')) ∧ us.map erase = ts.map (map Class.reference) := by
  induction ts generalizing w with
  | nil => exact Makes.pure fun _ _ => ⟨by simp, rfl⟩
  | cons t rest ihrest =>
    apply Makes.bind (ih t List.mem_cons_self w)
    intro w₁ u hw₁ hu
    apply Makes.bind (ihrest (fun v hv => ih v (List.mem_cons_of_mem t hv)) w₁)
    intro w₂ us hw₂ hus
    apply Makes.pure
    intro w₃ hw₃
    constructor
    . intro v hv
      rcases List.mem_cons.1 hv with rfl | hv
      . exact hu.known.mono (hw₂.trans hw₃)
      . exact (hus.1 v hv).mono hw₃
    . rw [List.map_cons, List.map_cons, hu.erase_eq, hus.2]

theorem Ty.instantiate_makes (t : Ty String) (w : World) : Makes w t.instantiate t.Instance := by
  induction t generalizing w with
  | unknown | any | nil | primitive p =>
    exact Makes.pure fun _ _ => ⟨by simp [All, classes], rfl⟩
  | cls name =>
    apply Makes.bind (Class.ofName_makes name)
    intro w₁ c hw₁ hc
    apply Makes.pure
    intro w₂ hw₂
    exact ⟨all_cls.2 (hc.1.mono hw₂), congrArg cls hc.2⟩
  | array element ih =>
    apply Makes.bind (ih w)
    intro w₁ u hw₁ hu
    apply Makes.pure
    intro w₂ hw₂
    exact ⟨all_array.2 (hu.known.mono hw₂), congrArg array hu.erase_eq⟩
  | generic base params hbase hparams =>
    apply Makes.bind (hbase w)
    intro w₁ u hw₁ hu
    apply Makes.bind (mapListM_makes hparams w₁)
    intro w₂ us hw₂ hus
    apply Makes.pure
    intro w₃ hw₃
    constructor
    . exact all_generic.2 ⟨hu.known.mono (hw₂.trans hw₃), fun v hv => (hus.1 v hv).mono hw₃⟩
    . have herase := hu.erase_eq
      have hparams' := hus.2
      unfold erase at herase hparams'
      simp only [erase, map, mapList_eq, herase, hparams']
  | union members ih =>
    apply Makes.bind (mapListM_makes ih w)
    intro w₁ us hw₁ hus
    apply Makes.pure
    intro w₂ hw₂
    constructor
    . exact all_union.2 fun v hv => (hus.1 v hv).mono hw₂
    . have hmembers := hus.2
      unfold erase at hmembers
      simp only [erase, map, mapList_eq, hmembers]

theorem Context.infer_makes (ctx : Context) [ctx.Quiet] (m : Member)
    : Makes w (ctx.infer m) (Ty.ofExpr m.type).Instance := by
  unfold infer
  rw [Quiet.observe_eq]
  exact (Ty.ofExpr m.type).instantiate_makes w

end Make

end LuaClasses
