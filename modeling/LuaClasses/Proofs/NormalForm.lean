import LuaClasses.Proofs.Types

/-!
This module contains the normal form of unions: at least two members, no two of them the same and
none of them a union. What is built as the union of some types is one of their parts or in this
form, and a union in this form is the union of its members.
-/

namespace LuaClasses

namespace Ty

theorem eq_of_beqList [BEq κ] {ss : List (Ty κ)} (h : ∀ s ∈ ss, ∀ t, beq s t = true → s = t)
    {ts : List (Ty κ)} (hts : beqList ss ts = true)
    : ss = ts := by
  induction ss generalizing ts with
  | nil =>
    cases ts with
    | nil => rfl
    | cons t rest => simp [beqList] at hts
  | cons s ss ih =>
    cases ts with
    | nil => simp [beqList] at hts
    | cons t ts =>
      simp only [beqList, Bool.and_eq_true] at hts
      rw [h s List.mem_cons_self t hts.1, ih (fun u hu => h u (List.mem_cons_of_mem s hu)) hts.2]

instance [BEq κ] [LawfulBEq κ] : LawfulBEq (Ty κ) where
  eq_of_beq := by
    intro s t h
    rw [beq_def] at h
    induction s generalizing t with
    | unknown | any | nil => cases t <;> first | rfl | simp [beq] at h
    | primitive p => cases t <;> simp_all [beq]
    | cls c => cases t <;> simp_all [beq]
    | array element ih =>
      cases t with
      | array element' => rw [ih (by simpa only [beq] using h)]
      | _ => simp [beq] at h
    | generic base params hbase hparams =>
      cases t with
      | generic base' params' =>
        simp only [beq, Bool.and_eq_true] at h
        rw [hbase h.1, eq_of_beqList hparams h.2]
      | _ => simp [beq] at h
    | union members ih =>
      cases t with
      | union members' => rw [eq_of_beqList ih (by simpa only [beq] using h)]
      | _ => simp [beq] at h

end Ty

section EraseDups

variable [BEq α] [LawfulBEq α]

theorem nodup_eraseDups (l : List α) : l.eraseDups.Nodup := by
  cases l with
  | nil => simp
  | cons a rest =>
    rw [List.eraseDups_cons, List.nodup_cons]
    constructor
    . simp [List.mem_eraseDups]
    . apply nodup_eraseDups
termination_by l.length
decreasing_by
  have hlength := List.length_filter_le (fun b => !b == a) rest
  rw [List.length_cons]
  omega

theorem eraseDups_of_nodup {l : List α} (h : l.Nodup) : l.eraseDups = l := by
  induction l with
  | nil => rfl
  | cons a rest ih =>
    rw [List.nodup_cons] at h
    have hfilter : rest.filter (fun b => !b == a) = rest := by
      rw [List.filter_eq_self]
      intro b hb
      have hne : b ≠ a := fun hba => h.1 (hba ▸ hb)
      simp [hne]
    rw [List.eraseDups_cons, hfilter, ih h.2]

end EraseDups

namespace Ty

/--
The members of a union in normal form.
-/
structure Proper (members : List (Ty κ)) : Prop where
  two_le : 2 ≤ members.length
  nodup : members.Nodup
  flat : ∀ t ∈ members, t.isUnion = false

theorem parts_of_not_isUnion {t : Ty κ} (h : t.isUnion = false) : t.parts = [t] := by
  cases t with
  | union members => cases h
  | _ => rfl

theorem flatMap_parts {ts : List (Ty κ)} (h : ∀ t ∈ ts, t.isUnion = false)
    : ts.flatMap parts = ts := by
  induction ts with
  | nil => rfl
  | cons t rest ih =>
    rw [List.flatMap_cons, parts_of_not_isUnion (h t List.mem_cons_self),
      ih fun u hu => h u (List.mem_cons_of_mem t hu)]
    rfl

variable [BEq κ] [LawfulBEq κ]

theorem unionOf_of_proper {members : List (Ty κ)} (h : Proper members)
    : unionOf members = .union members := by
  have hlength := h.two_le
  unfold unionOf
  rw [flatMap_parts h.flat, eraseDups_of_nodup h.nodup]
  split
  . simp at hlength
  . simp at hlength
  . rfl

/--
The union of types has a property if all their parts have it and unions in normal form inherit it
from their members.
-/
theorem unionOf_induct {motive : Ty κ → Prop} (types : List (Ty κ)) (unknown : motive .unknown)
    (parts : ∀ t ∈ types, ∀ u ∈ t.parts, motive u ∧ u.isUnion = false)
    (union : ∀ members, Proper members → (∀ t ∈ members, motive t) → motive (.union members))
    : motive (unionOf types) := by
  have hparts : ∀ u ∈ (types.flatMap Ty.parts).eraseDups, motive u ∧ u.isUnion = false := by
    intro u hu
    rw [List.mem_eraseDups, List.mem_flatMap] at hu
    rcases hu with ⟨t, ht, hu⟩
    exact parts t ht u hu
  have hnodup := nodup_eraseDups (types.flatMap Ty.parts)
  unfold unionOf
  generalize (types.flatMap Ty.parts).eraseDups = members at hparts hnodup
  rcases members with _ | ⟨t, _ | ⟨u, rest⟩⟩
  . exact unknown
  . exact (hparts t List.mem_cons_self).1
  . apply union
    . exact ⟨by simp, hnodup, fun v hv => (hparts v hv).2⟩
    . exact fun v hv => (hparts v hv).1

end Ty

end LuaClasses
