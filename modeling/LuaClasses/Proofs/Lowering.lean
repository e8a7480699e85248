import LuaClasses.Proofs.Display

/-!
This module contains the normal form of the types that expressions denote. A nest of unions comes
down to the expressions in it that are no unions. The distinct types of these, in the order in which
they first stand there, are the members of the type, and no union is left among them.
-/

namespace LuaClasses

section FirstOccurrences

variable [BEq α]

/--
The list `distinct` has each element of `all` once, in the order of their first places in `all`.
-/
structure FirstOccurrences (distinct all : List α) : Prop where
  sound : ∀ a ∈ distinct, all.contains a = true
  complete : ∀ a ∈ all, distinct.contains a = true
  ordered : distinct.Pairwise fun a b => all.idxOf a < all.idxOf b

section Map

variable [BEq β] {f : α → β} (hf : ∀ a b, (f a == f b) = (a == b))

include hf in
theorem contains_map (l : List α) (a : α) : (l.map f).contains (f a) = l.contains a := by
  induction l with
  | nil => rfl
  | cons b rest ih => rw [List.map_cons, List.contains_cons, List.contains_cons, hf, ih]

include hf in
theorem idxOf_map (l : List α) (a : α) : (l.map f).idxOf (f a) = l.idxOf a := by
  induction l with
  | nil => rfl
  | cons b rest ih => rw [List.map_cons, List.idxOf_cons, List.idxOf_cons, hf, ih]

include hf in
theorem firstOccurrences_map_iff {distinct all : List α}
    : FirstOccurrences (distinct.map f) (all.map f) ↔ FirstOccurrences distinct all := by
  constructor
  . rintro ⟨hsound, hcomplete, hordered⟩
    simp only [List.forall_mem_map, contains_map hf] at hsound hcomplete
    simp only [List.pairwise_map, idxOf_map hf] at hordered
    exact ⟨hsound, hcomplete, hordered⟩
  . rintro ⟨hsound, hcomplete, hordered⟩
    constructor
    . simpa only [List.forall_mem_map, contains_map hf] using hsound
    . simpa only [List.forall_mem_map, contains_map hf] using hcomplete
    . simpa only [List.pairwise_map, idxOf_map hf] using hordered

end Map

variable [LawfulBEq α]

theorem eraseDups_concat (l : List α) (a : α)
    : (l ++ [a]).eraseDups = if l.contains a then l.eraseDups else l.eraseDups ++ [a] := by
  rw [List.eraseDups_append, List.removeAll, List.filter_cons]
  by_cases ha : a ∈ l
  . simp [ha]
  . simp [ha, List.eraseDups_cons]

-- By induction on the end of the list: an element that is new there comes after all others.
theorem firstOccurrences_eraseDups (l : List α) : FirstOccurrences l.eraseDups l := by
  refine ⟨by simp, by simp, ?_⟩
  rw [← List.reverse_reverse l]
  induction l.reverse with
  | nil => simp
  | cons a rest ih =>
    rw [List.reverse_cons]
    generalize rest.reverse = l at ih
    have hold : l.eraseDups.Pairwise fun b c => (l ++ [a]).idxOf b < (l ++ [a]).idxOf c := by
      apply ih.imp_of_mem
      intro b c hb hc hbc
      rw [List.mem_eraseDups] at hb hc
      rwa [List.idxOf_append, if_pos hb, List.idxOf_append, if_pos hc]
    rw [eraseDups_concat]
    split
    . exact hold
    . next ha =>
      rw [List.pairwise_append]
      refine ⟨hold, List.pairwise_singleton _ a, ?_⟩
      intro b hb c hc
      rw [List.mem_eraseDups] at hb
      have hlt := List.idxOf_lt_length_of_mem hb
      rw [List.mem_singleton.1 hc, List.idxOf_append, if_pos hb, List.idxOf_append,
        if_neg (by simpa using ha)]
      omega

theorem eraseDups_filter (p : α → Bool) (l : List α)
    : (l.filter p).eraseDups = l.eraseDups.filter p := by
  rw [← List.reverse_reverse l]
  induction l.reverse with
  | nil => rfl
  | cons a rest ih =>
    rw [List.reverse_cons, List.filter_append, eraseDups_concat, List.filter_cons, List.filter_nil]
    generalize rest.reverse = l at ih
    cases hp : p a with
    | false =>
      rw [if_neg nofun, List.append_nil, ih]
      split
      . rfl
      . simp [hp]
    | true =>
      rw [if_pos rfl, eraseDups_concat]
      by_cases ha : a ∈ l
      . simp [ha, hp, ih]
      . simp [ha, hp, ih]

theorem eraseDups_append_congr {as as' bs bs' : List α} (h : as.eraseDups = as'.eraseDups)
    (h' : bs.eraseDups = bs'.eraseDups)
    : (as ++ bs).eraseDups = (as' ++ bs').eraseDups := by
  have hmem : ∀ a, a ∈ as ↔ a ∈ as' := by
    intro a
    rw [← List.mem_eraseDups, h, List.mem_eraseDups]
  rw [List.eraseDups_append, List.eraseDups_append, List.removeAll, List.removeAll,
    eraseDups_filter, eraseDups_filter, h, h']
  simp [hmem]

theorem eraseDups_flatMap_congr {f g : β → List α} {l : List β}
    (h : ∀ x ∈ l, (f x).eraseDups = (g x).eraseDups)
    : (l.flatMap f).eraseDups = (l.flatMap g).eraseDups := by
  induction l with
  | nil => rfl
  | cons x rest ih =>
    rw [List.flatMap_cons, List.flatMap_cons]
    apply eraseDups_append_congr
    . exact h x List.mem_cons_self
    . exact ih fun y hy => h y (List.mem_cons_of_mem x hy)

end FirstOccurrences

namespace TypeExpr

@[elab_as_elim]
theorem induct {motive : TypeExpr → Prop} (named : ∀ name, motive (.named name))
    (array : ∀ element, motive element → motive (.array element))
    (generic : ∀ base params, (∀ e ∈ params, motive e) → motive (.generic base params))
    (union : ∀ members, (∀ e ∈ members, motive e) → motive (.union members))
    (e : TypeExpr)
    : motive e :=
  @TypeExpr.rec motive (fun es => ∀ e ∈ es, motive e) named array generic union
    (fun _ h => absurd h List.not_mem_nil)
    (fun _ _ hhead htail _ h => (List.mem_cons.1 h).elim (· ▸ hhead) (htail _ ·)) e

mutual

/--
The expressions other than unions that a nest of unions comes down to, from left to right. A union
of nothing comes down to the unknown type.
-/
def leaves : TypeExpr → List TypeExpr
  | .named name => [.named name]
  | .array element => [.array element]
  | .generic base params => [.generic base params]
  | .union members => if members.isEmpty then [unknown] else leavesOfList members

def leavesOfList : List TypeExpr → List TypeExpr
  | [] => []
  | e :: rest => leaves e ++ leavesOfList rest

end

theorem leavesOfList_eq (es : List TypeExpr) : leavesOfList es = es.flatMap leaves := by
  induction es with
  | nil => rfl
  | cons e rest ih => rw [leavesOfList, ih, List.flatMap_cons]

theorem leaves_union {members : List TypeExpr} (h : members ≠ [])
    : (union members).leaves = members.flatMap leaves := by
  rw [leaves, if_neg (by simpa using h), leavesOfList_eq]

theorem leaves_ne_nil (e : TypeExpr) : e.leaves ≠ [] := by
  induction e using induct with
  | named name => nofun
  | array element ih => nofun
  | generic base params ih => nofun
  | union members ih =>
    cases members with
    | nil => nofun
    | cons e rest =>
      rw [leaves_union (List.cons_ne_nil e rest), List.flatMap_cons]
      exact List.append_ne_nil_of_left_ne_nil (ih e List.mem_cons_self) _

theorem isUnion_of_mem_leaves {e leaf : TypeExpr} (h : leaf ∈ e.leaves)
    : (Ty.ofExpr leaf).isUnion = false := by
  induction e using induct with
  | named name =>
    rw [List.mem_singleton.1 h, Ty.ofExpr, Ty.isUnion_ofName]
  | array element ih =>
    rw [List.mem_singleton.1 h]
    rfl
  | generic base params ih =>
    rw [List.mem_singleton.1 h]
    rfl
  | union members ih =>
    by_cases hmembers : members = []
    . subst hmembers
      rw [List.mem_singleton.1 h]
      rfl
    . rw [leaves_union hmembers, List.mem_flatMap] at h
      rcases h with ⟨e, he, hleaf⟩
      exact ih e he hleaf

end TypeExpr

theorem Class.reference_beq (c d : String) : (reference c == reference d) = (c == d) := by
  simp [beq_def, reference]

namespace Ty

/--
The type with these members, which is no union if there is only one of them.
-/
def joined : List (Ty κ) → Ty κ
  | [t] => t
  | members => .union members

theorem unionOf_eq_joined [BEq κ] {types : List (Ty κ)} (hne : types ≠ [])
    (hflat : ∀ t ∈ types, t.isUnion = false)
    : unionOf types = joined types.eraseDups := by
  have hmembers : types.eraseDups ≠ [] := by
    cases types with
    | nil => exact absurd rfl hne
    | cons t rest => simp [List.eraseDups_cons]
  unfold unionOf
  rw [flatMap_parts hflat]
  generalize types.eraseDups = members at hmembers
  rcases members with _ | ⟨t, _ | ⟨u, rest⟩⟩
  . exact absurd rfl hmembers
  . rfl
  . rfl

theorem parts_joined {members : List (Ty κ)} (hflat : ∀ t ∈ members, t.isUnion = false)
    : (joined members).parts = members := by
  rcases members with _ | ⟨t, _ | ⟨u, rest⟩⟩
  . rfl
  . exact parts_of_not_isUnion (hflat t List.mem_cons_self)
  . rfl

theorem ofExpr_eq_joined (e : TypeExpr) : ofExpr e = joined (e.leaves.map ofExpr).eraseDups := by
  have hne : ∀ e : TypeExpr, e.leaves.map ofExpr ≠ [] := by
    intro e
    simpa using e.leaves_ne_nil
  have hflat : ∀ e : TypeExpr, ∀ t ∈ e.leaves.map ofExpr, t.isUnion = false := by
    intro e t ht
    rcases List.mem_map.1 ht with ⟨leaf, hleaf, rfl⟩
    exact TypeExpr.isUnion_of_mem_leaves hleaf
  induction e using TypeExpr.induct with
  | named name => rfl
  | array element ih => rfl
  | generic base params ih => rfl
  | union members ih =>
    by_cases hmembers : members = []
    . subst hmembers
      rfl
    . have hparts : ∀ e ∈ members,
          (ofExpr e).parts.eraseDups = (e.leaves.map ofExpr).eraseDups := by
        intro e he
        have hflat' : ∀ t ∈ (e.leaves.map ofExpr).eraseDups, t.isUnion = false := by
          intro t ht
          exact hflat e t (List.mem_eraseDups.1 ht)
        rw [ih e he, parts_joined hflat', eraseDups_of_nodup (nodup_eraseDups _)]
      rw [← unionOf_eq_joined (hne _) (hflat _), ofExpr, ofExprs_eq]
      unfold unionOf
      rw [flatMap_parts (hflat _), TypeExpr.leaves_union hmembers, List.map_flatMap,
        List.flatMap_map, eraseDups_flatMap_congr hparts]

/--
The types that a type is built from, the type itself among them.
-/
inductive Inside (u : Ty κ) : Ty κ → Prop where
  | self : Inside u u
  | element : Inside u element → Inside u (.array element)
  | base : Inside u base → Inside u (.generic base params)
  | param : p ∈ params → Inside u p → Inside u (.generic base params)
  | member : t ∈ members → Inside u t → Inside u (.union members)

/--
The members of a union in normal form, as far as the sameness of types tells them apart.
-/
structure Merged [BEq κ] (members : List (Ty κ)) : Prop where
  two_le : 2 ≤ members.length
  distinct : members.Pairwise fun t u => (t == u) = false
  flat : ∀ t ∈ members, t.isUnion = false

/--
Whether all unions in a type are in normal form.
-/
def Normal [BEq κ] (t : Ty κ) : Prop :=
  ∀ members, Inside (.union members) t → Merged members

section Normal

variable [BEq κ]

theorem Proper.merged [LawfulBEq κ] {members : List (Ty κ)} (h : Proper members)
    : Merged members := by
  refine ⟨h.two_le, ?_, h.flat⟩
  apply h.nodup.imp
  intro t u hne
  exact beq_false_of_ne hne

theorem normal_ofName (name : String) : (ofName name).Normal := by
  intro members h
  unfold ofName at h
  split at h <;> cases h

theorem Normal.array {element : Ty κ} (h : element.Normal) : (array element).Normal := by
  intro members hinside
  cases hinside with
  | element hinside => exact h members hinside

theorem Normal.generic {base : Ty κ} {params : List (Ty κ)} (hbase : base.Normal)
    (hparams : ∀ p ∈ params, p.Normal)
    : (generic base params).Normal := by
  intro members hinside
  cases hinside with
  | base hinside => exact hbase members hinside
  | param hp hinside => exact hparams _ hp members hinside

theorem Normal.union {members : List (Ty κ)} (h : Merged members)
    (hmembers : ∀ t ∈ members, t.Normal)
    : (union members).Normal := by
  intro members' hinside
  cases hinside with
  | self => exact h
  | member ht hinside => exact hmembers _ ht members' hinside

theorem Normal.of_mem_parts {t u : Ty κ} (h : t.Normal) (hu : u ∈ t.parts)
    : u.Normal ∧ u.isUnion = false := by
  by_cases ht : t.isUnion = false
  . rw [parts_of_not_isUnion ht, List.mem_singleton] at hu
    subst hu
    exact ⟨h, ht⟩
  . cases t with
    | union members =>
      refine ⟨?_, (h members .self).flat u hu⟩
      exact fun members' hinside => h members' (.member hu hinside)
    | _ => exact absurd rfl ht

theorem normal_ofExpr (e : TypeExpr) : (ofExpr e).Normal := by
  induction e using TypeExpr.induct with
  | named name => exact normal_ofName name
  | array element ih => exact ih.array
  | generic base params ih =>
    rw [ofExpr, ofExprs_eq]
    apply Normal.generic (normal_ofName base)
    simpa using ih
  | union members ih =>
    rw [ofExpr, ofExprs_eq]
    apply unionOf_induct
    . exact normal_ofName "unknown"
    . intro t ht u hu
      rcases List.mem_map.1 ht with ⟨e, he, rfl⟩
      exact (ih e he).of_mem_parts hu
    . exact fun members h => .union h.merged

end Normal

section Map

variable {f : κ → ν}

theorem Inside.map {t u : Ty κ} (h : Inside u t) (f : κ → ν) : Inside (u.map f) (t.map f) := by
  induction h with
  | self => exact .self
  | element _ ih => exact .element ih
  | base _ ih => exact .base ih
  | param hp _ ih =>
    simp only [Ty.map, mapList_eq]
    exact .param (List.mem_map_of_mem hp) ih
  | member ht _ ih =>
    simp only [Ty.map, mapList_eq]
    exact .member (List.mem_map_of_mem ht) ih

theorem exists_inside_of_map {t : Ty κ} {u : Ty ν} (h : Inside u (t.map f))
    : ∃ t', Inside t' t ∧ t'.map f = u := by
  induction t with
  | unknown | any | nil | primitive p | cls c =>
    cases h
    exact ⟨_, .self, rfl⟩
  | array element ih =>
    cases h with
    | self => exact ⟨_, .self, rfl⟩
    | element h =>
      rcases ih h with ⟨t', ht', rfl⟩
      exact ⟨t', .element ht', rfl⟩
  | generic base params hbase hparams =>
    simp only [map, mapList_eq] at h
    cases h with
    | self => exact ⟨_, .self, by simp [map]⟩
    | base h =>
      rcases hbase h with ⟨t', ht', rfl⟩
      exact ⟨t', .base ht', rfl⟩
    | param hp h =>
      rcases List.mem_map.1 hp with ⟨p, hmem, rfl⟩
      rcases hparams p hmem h with ⟨t', ht', rfl⟩
      exact ⟨t', .param hmem ht', rfl⟩
  | union members ih =>
    simp only [map, mapList_eq] at h
    cases h with
    | self => exact ⟨_, .self, by simp [map]⟩
    | member hm h =>
      rcases List.mem_map.1 hm with ⟨m, hmem, rfl⟩
      rcases ih m hmem h with ⟨t', ht', rfl⟩
      exact ⟨t', .member hmem ht', rfl⟩

variable [BEq κ] [BEq ν] (hf : ∀ c d, (f c == f d) = (c == d))

include hf in
theorem merged_map_iff {members : List (Ty κ)}
    : Merged (members.map (map f)) ↔ Merged members := by
  constructor
  . rintro ⟨htwo, hdistinct, hflat⟩
    simp only [List.length_map] at htwo
    simp only [List.pairwise_map, beq_map hf] at hdistinct
    simp only [List.forall_mem_map, isUnion_map] at hflat
    exact ⟨htwo, hdistinct, hflat⟩
  . rintro ⟨htwo, hdistinct, hflat⟩
    constructor
    . simpa only [List.length_map] using htwo
    . simpa only [List.pairwise_map, beq_map hf] using hdistinct
    . simpa only [List.forall_mem_map, isUnion_map] using hflat

include hf in
theorem normal_map_iff {t : Ty κ} : (t.map f).Normal ↔ t.Normal := by
  constructor
  . intro h members hinside
    rw [← merged_map_iff hf]
    apply h
    have hmap := hinside.map f
    rwa [map, mapList_eq] at hmap
  . intro h members hinside
    rcases exists_inside_of_map hinside with ⟨t', ht', heq⟩
    cases t' with
    | union members' =>
      rw [map, mapList_eq] at heq
      cases heq
      rw [merged_map_iff hf]
      exact h members' ht'
    | _ => cases heq

end Map

/--
The type that an expression denotes, with class values that are made in the state `s`.
-/
def lowered (s : QueryState) (e : TypeExpr) : Ty Class :=
  ((ofExpr e).instantiate.run s).1

theorem mem_mapListM {ts : List (Ty String)} {s : QueryState} {u : Ty Class}
    (h : u ∈ ((mapListM Class.ofName ts).run s).1)
    : ∃ t ∈ ts, ∃ s', u = (t.instantiate.run s').1 := by
  induction ts generalizing s with
  | nil => cases h
  | cons t rest ih =>
    rcases List.mem_cons.1 h with rfl | h
    . exact ⟨t, List.mem_cons_self, s, rfl⟩
    . rcases ih h with ⟨t', ht', hu⟩
      exact ⟨t', List.mem_cons_of_mem t ht', hu⟩

theorem instantiate_joined (ts : List (Ty String)) (s : QueryState)
    : ∃ members, ((joined ts).instantiate.run s).1 = joined members ∧
        members.map erase = ts.map (map Class.reference) ∧
        ∀ u ∈ members, ∃ t ∈ ts, ∃ s', u = (t.instantiate.run s').1 := by
  have herase : ∀ ts : List (Ty String), ((mapListM Class.ofName ts).run s).1.map erase
      = ts.map (map Class.reference) := by
    intro ts
    rw [← mapList_eq, ← mapListM_erase (fun t _ => instantiate_erase t) s, mapList_eq]
    rfl
  rcases ts with _ | ⟨t, _ | ⟨t', rest⟩⟩
  . exact ⟨[], rfl, rfl, nofun⟩
  . refine ⟨[(t.instantiate.run s).1], rfl, ?_, ?_⟩
    . rw [List.map_singleton, instantiate_erase, List.map_singleton]
    . intro u hu
      exact ⟨t, List.mem_cons_self, s, List.mem_singleton.1 hu⟩
  . exact ⟨_, rfl, herase (t :: t' :: rest), fun u hu => mem_mapListM hu⟩

end Ty

open Ty in
theorem lowered_in_normal_form (e : TypeExpr) (s : QueryState)
    : (∀ members, Inside (.union members) (lowered s e) → Merged members) ∧
      ∃ members, lowered s e = joined members ∧
        (∀ t ∈ members, ∃ leaf ∈ e.leaves, ∃ s', t = lowered s' leaf) ∧
        ∀ s', FirstOccurrences members (e.leaves.map (lowered s')) := by
  constructor
  . change (lowered s e).Normal
    rw [← normal_map_iff Class.erase_beq]
    change (lowered s e).erase.Normal
    rw [lowered, instantiate_erase, normal_map_iff Class.reference_beq]
    exact normal_ofExpr e
  . rcases instantiate_joined (e.leaves.map ofExpr).eraseDups s with ⟨members, heq, herase, hmade⟩
    refine ⟨members, ?_, ?_, ?_⟩
    . rw [lowered, ofExpr_eq_joined, heq]
    . intro t ht
      rcases hmade t ht with ⟨u, hu, s', rfl⟩
      rw [List.mem_eraseDups, List.mem_map] at hu
      rcases hu with ⟨leaf, hleaf, rfl⟩
      exact ⟨leaf, hleaf, s', rfl⟩
    . intro s'
      have hall : (e.leaves.map (lowered s')).map erase
          = (e.leaves.map ofExpr).map (map Class.reference) := by
        simp [lowered, instantiate_erase]
      rw [← firstOccurrences_map_iff (beq_map Class.erase_beq)]
      change FirstOccurrences (members.map erase) ((e.leaves.map (lowered s')).map erase)
      rw [herase, hall, firstOccurrences_map_iff (beq_map Class.reference_beq)]
      exact firstOccurrences_eraseDups _

end LuaClasses
