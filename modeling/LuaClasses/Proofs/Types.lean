import LuaClasses.Subtyping

/-!
This module contains the theory of types as trees of classes: induction over them, the classes that
occur in them, and what a change of their classes leaves alone. The cell of a class is no part of
what the class is, so types are compared after all cells have been erased.
-/

namespace LuaClasses

namespace Ty

@[elab_as_elim, induction_eliminator]
theorem induct {motive : Ty κ → Prop} (unknown : motive .unknown) (any : motive .any)
    (nil : motive .nil) (primitive : ∀ p, motive (.primitive p)) (cls : ∀ c, motive (.cls c))
    (array : ∀ element, motive element → motive (.array element))
    (generic : ∀ base params, motive base → (∀ p ∈ params, motive p) →
      motive (.generic base params))
    (union : ∀ members, (∀ t ∈ members, motive t) → motive (.union members))
    (t : Ty κ)
    : motive t :=
  @Ty.rec κ motive (fun ts => ∀ t ∈ ts, motive t) unknown any nil primitive cls array generic union
    (fun _ h => absurd h List.not_mem_nil)
    (fun _ _ hhead htail _ h => (List.mem_cons.1 h).elim (· ▸ hhead) (htail _ ·)) t

mutual

def map (f : κ → ν) : Ty κ → Ty ν
  | .unknown => .unknown
  | .any => .any
  | .nil => .nil
  | .primitive p => .primitive p
  | .cls c => .cls (f c)
  | .array element => .array (map f element)
  | .generic base params => .generic (map f base) (mapList f params)
  | .union members => .union (mapList f members)

def mapList (f : κ → ν) : List (Ty κ) → List (Ty ν)
  | [] => []
  | t :: rest => map f t :: mapList f rest

end

mutual

/--
The classes in a type, from left to right.
-/
def classes : Ty κ → List κ
  | .cls c => [c]
  | .array element => classes element
  | .generic base params => classes base ++ classesOfList params
  | .union members => classesOfList members
  | _ => []

def classesOfList : List (Ty κ) → List κ
  | [] => []
  | t :: rest => classes t ++ classesOfList rest

end

@[simp]
theorem mapList_eq (f : κ → ν) (ts : List (Ty κ)) : mapList f ts = ts.map (map f) := by
  induction ts with
  | nil => rfl
  | cons t rest ih => simp only [mapList, ih, List.map_cons]

@[simp]
theorem classesOfList_eq (ts : List (Ty κ)) : classesOfList ts = ts.flatMap classes := by
  induction ts with
  | nil => rfl
  | cons t rest ih => simp only [classesOfList, ih, List.flatMap_cons]

/--
Whether every class in a type has a property.
-/
def All (p : κ → Prop) (t : Ty κ) : Prop :=
  ∀ c ∈ t.classes, p c

section All

variable {p q : κ → Prop}

theorem All.imp {t : Ty κ} (h : t.All p) (hpq : ∀ c, p c → q c) : t.All q :=
  fun c hc => hpq c (h c hc)

@[simp]
theorem all_cls {c : κ} : (cls c).All p ↔ p c := by
  simp [All, classes]

@[simp]
theorem all_array {element : Ty κ} : (array element).All p ↔ element.All p := by
  simp [All, classes]

@[simp]
theorem all_generic {base : Ty κ} {params : List (Ty κ)}
    : (generic base params).All p ↔ base.All p ∧ ∀ t ∈ params, t.All p := by
  simp only [All, classes, classesOfList_eq, List.mem_append, List.mem_flatMap]
  grind

@[simp]
theorem all_union {members : List (Ty κ)}
    : (union members).All p ↔ ∀ t ∈ members, t.All p := by
  simp only [All, classes, classesOfList_eq, List.mem_flatMap]
  grind

end All

theorem map_id (t : Ty κ) : t.map id = t := by
  induction t with
  | unknown | any | nil | primitive p => rfl
  | cls c => rfl
  | array element ih => simp only [map, ih]
  | generic base params hbase hparams =>
    simp only [map, mapList_eq, hbase]
    rw [List.map_congr_left hparams]
    simp
  | union members ih =>
    simp only [map, mapList_eq]
    rw [List.map_congr_left ih]
    simp

section BEq

variable [BEq κ]

theorem beq_def (s t : Ty κ) : (s == t) = beq s t :=
  rfl

theorem beqList_refl {ts : List (Ty κ)} (h : ∀ t ∈ ts, beq t t = true) : beqList ts ts = true := by
  induction ts with
  | nil => rfl
  | cons t rest ih =>
    simp only [beqList, Bool.and_eq_true]
    exact ⟨h t List.mem_cons_self, ih fun u hu => h u (List.mem_cons_of_mem t hu)⟩

instance [ReflBEq κ] : ReflBEq (Ty κ) where
  rfl := by
    intro t
    rw [beq_def]
    induction t with
    | unknown | any | nil => rfl
    | primitive p => simp only [beq, BEq.rfl]
    | cls c => simp only [beq, BEq.rfl]
    | array element ih => simpa only [beq] using ih
    | generic base params hbase hparams =>
      simp only [beq, Bool.and_eq_true]
      exact ⟨hbase, beqList_refl hparams⟩
    | union members ih => simpa only [beq] using beqList_refl ih

variable [BEq ν] {f : ι → κ} {g : ι → ν} {p : ι → Prop}
  (hfg : ∀ c d, p c → p d → (f c == f d) = (g c == g d))

theorem beqList_map_congr {ss ts : List (Ty ι)}
    (h : ∀ s ∈ ss, ∀ {t}, s.All p → t.All p →
      beq (map f s) (map f t) = beq (map g s) (map g t))
    (hss : ∀ s ∈ ss, s.All p) (hts : ∀ t ∈ ts, t.All p)
    : beqList (ss.map (map f)) (ts.map (map f)) = beqList (ss.map (map g)) (ts.map (map g)) := by
  induction ss generalizing ts with
  | nil => cases ts <;> rfl
  | cons s rest ih =>
    cases ts with
    | nil => rfl
    | cons t ts =>
      rcases List.forall_mem_cons.1 hss with ⟨hs, hrest⟩
      rcases List.forall_mem_cons.1 hts with ⟨ht, hts⟩
      simp only [List.map_cons, beqList]
      rw [h s List.mem_cons_self hs ht, ih (fun u hu => h u (List.mem_cons_of_mem s hu)) hrest hts]

include hfg in
theorem beq_map_congr {s t : Ty ι} (hs : s.All p) (ht : t.All p)
    : (s.map f == t.map f) = (s.map g == t.map g) := by
  simp only [beq_def]
  induction s generalizing t with
  | unknown | any | nil | primitive p => cases t <;> simp only [map, beq]
  | cls c =>
    cases t with
    | cls d => simpa only [map, beq] using hfg c d (all_cls.1 hs) (all_cls.1 ht)
    | _ => simp only [map, beq]
  | array element ih =>
    cases t with
    | array element' => simpa only [map, beq] using ih (all_array.1 hs) (all_array.1 ht)
    | _ => simp only [map, beq]
  | generic base params hbase hparams =>
    cases t with
    | generic base' params' =>
      rcases all_generic.1 hs with ⟨hb, hps⟩
      rcases all_generic.1 ht with ⟨hb', hps'⟩
      simp only [map, beq, mapList_eq]
      rw [hbase hb hb', beqList_map_congr hparams hps hps']
    | _ => simp only [map, beq]
  | union members ih =>
    cases t with
    | union members' =>
      simp only [map, beq, mapList_eq]
      exact beqList_map_congr ih (all_union.1 hs) (all_union.1 ht)
    | _ => simp only [map, beq]

theorem beq_map {f : κ → ν} (hf : ∀ c d, (f c == f d) = (c == d)) (s t : Ty κ)
    : (s.map f == t.map f) = (s == t) := by
  have hcongr : (s.map f == t.map f) = (s.map id == t.map id) :=
    beq_map_congr (p := fun _ => True) (fun c d _ _ => hf c d) (fun _ _ => trivial)
      fun _ _ => trivial
  rwa [map_id, map_id] at hcongr

end BEq

/--
Whether the type is one of those that can be used everywhere if a check is not strict.
-/
def isWild : Ty κ → Bool
  | .any => true
  | .unknown => true
  | .nil => true
  | _ => false

def isUnion : Ty κ → Bool
  | .union _ => true
  | _ => false

def isGeneric : Ty κ → Bool
  | .generic .. => true
  | _ => false

@[simp]
theorem isTop_map (f : κ → ν) (t : Ty κ) : (t.map f).isTop = t.isTop := by
  cases t <;> rfl

@[simp]
theorem isWild_map (f : κ → ν) (t : Ty κ) : (t.map f).isWild = t.isWild := by
  cases t <;> rfl

@[simp]
theorem isUnion_map (f : κ → ν) (t : Ty κ) : (t.map f).isUnion = t.isUnion := by
  cases t <;> rfl

@[simp]
theorem isTable_map (f : κ → ν) (t : Ty κ) : (t.map f).isTable = t.isTable := by
  induction t with
  | primitive p => cases p <;> rfl
  | generic base params hbase hparams => simpa only [map, isTable] using hbase
  | _ => rfl

end Ty

/--
The origin without the number of its cell.
-/
def Origin.erase : Origin → Origin
  | .serialized superName aliasName _ => .serialized superName aliasName 0
  | .lazy _ => .lazy 0
  | origin => origin

namespace Class

/--
The class without the number of its cell: what was known when it was made.
-/
def erase (c : Class) : Class :=
  { c with origin := c.origin.erase }

/--
The class that a name refers to, without a cell of its own.
-/
def reference (name : String) : Class :=
  { name, varName := name, flags := .empty, origin := .lazy 0 }

/--
Class values of which the same is known without the index.
-/
structure Similar (c d : Class) : Prop where
  name_eq : c.name = d.name
  varName_eq : c.varName = d.varName
  flags_eq : c.flags = d.flags
  fields?_eq : c.origin.fields? = d.origin.fields?

theorem beq_def (c d : Class) : (c == d) = (c.name == d.name && c.flags == d.flags) :=
  rfl

theorem beq_comm (c d : Class) : (c == d) = (d == c) := by
  simp only [beq_def, BEq.comm]

instance : ReflBEq Class where
  rfl := by simp [beq_def]

@[simp]
theorem erase_name (c : Class) : c.erase.name = c.name :=
  rfl

@[simp]
theorem erase_flags (c : Class) : c.erase.flags = c.flags :=
  rfl

@[simp]
theorem erase_beq (c d : Class) : (c.erase == d.erase) = (c == d) :=
  rfl

@[simp]
theorem erase_erase (c : Class) : c.erase.erase = c.erase := by
  rcases c with ⟨name, varName, flags, origin⟩
  cases origin <;> rfl

@[simp]
theorem erase_fields? (c : Class) : c.erase.origin.fields? = c.origin.fields? := by
  rcases c with ⟨name, varName, flags, origin⟩
  cases origin <;> rfl

@[simp]
theorem erase_originHeader (c : Class) : c.erase.origin.header = c.origin.header := by
  rcases c with ⟨name, varName, flags, origin⟩
  cases origin <;> rfl

@[simp]
theorem erase_cell?_isSome (c : Class) : c.erase.origin.cell?.isSome = c.origin.cell?.isSome := by
  rcases c with ⟨name, varName, flags, origin⟩
  cases origin <;> rfl

namespace Similar

variable {c c' d d' : Class}

theorem refl (c : Class) : c.Similar c :=
  ⟨rfl, rfl, rfl, rfl⟩

theorem symm (h : c.Similar d) : d.Similar c :=
  ⟨h.name_eq.symm, h.varName_eq.symm, h.flags_eq.symm, h.fields?_eq.symm⟩

theorem trans {e : Class} (h : c.Similar d) (h' : d.Similar e) : c.Similar e :=
  ⟨h.name_eq.trans h'.name_eq, h.varName_eq.trans h'.varName_eq, h.flags_eq.trans h'.flags_eq,
    h.fields?_eq.trans h'.fields?_eq⟩

theorem beq_eq (h : c.Similar d) (h' : c'.Similar d') : (c == c') = (d == d') := by
  rw [beq_def, beq_def, h.name_eq, h.flags_eq, h'.name_eq, h'.flags_eq]

theorem displayName_eq (h : c.Similar d) : c.displayName = d.displayName := by
  unfold displayName
  rw [h.flags_eq, h.varName_eq]

theorem isEmptyTable_eq (h : c.Similar d) : c.isEmptyTable = d.isEmptyTable := by
  unfold isEmptyTable
  rw [h.flags_eq, h.fields?_eq]

end Similar

theorem similar_erase (c : Class) : c.Similar c.erase :=
  ⟨rfl, rfl, rfl, c.erase_fields?.symm⟩

end Class

def Ty.erase (t : Ty Class) : Ty Class :=
  t.map Class.erase

/--
The type that a type expression denotes, each class of it given by its name alone.
-/
def Ty.lower (e : TypeExpr) : Ty Class :=
  (Ty.ofExpr e).map Class.reference

theorem Ty.map_map (f : ν → μ) (g : κ → ν) (t : Ty κ) : (t.map g).map f = t.map (f ∘ g) := by
  induction t with
  | unknown | any | nil | primitive p => rfl
  | cls c => rfl
  | array element ih => simp only [map, ih]
  | generic base params hbase hparams =>
    simp only [map, mapList_eq, List.map_map, Function.comp_def, hbase]
    rw [List.map_congr_left hparams]
    rfl
  | union members ih =>
    simp only [map, mapList_eq, List.map_map, Function.comp_def]
    rw [List.map_congr_left ih]
    rfl

section Paired

namespace Ty

theorem map_congr {f g : κ → ν} {t : Ty κ} (h : t.All fun c => f c = g c) : t.map f = t.map g := by
  induction t with
  | unknown | any | nil | primitive p => rfl
  | cls c =>
    have hc : f c = g c := h c (List.mem_singleton.2 rfl)
    simp only [map, hc]
  | array element ih => exact congrArg array (ih (all_array.1 h))
  | generic base params hbase hparams =>
    rcases all_generic.1 h with ⟨hb, hps⟩
    simp only [map, mapList_eq, hbase hb]
    rw [List.map_congr_left fun t ht => hparams t ht (hps t ht)]
  | union members ih =>
    simp only [map, mapList_eq]
    rw [List.map_congr_left fun t ht => ih t ht (all_union.1 h t ht)]

theorem all_map {f : κ → ν} {p : ν → Prop} {t : Ty κ} : (t.map f).All p ↔ t.All (p ∘ f) := by
  induction t with
  | unknown | any | nil | primitive p => simp [All, map, classes]
  | cls c => simp only [map, all_cls, Function.comp_apply]
  | array element ih => simpa only [map, all_array] using ih
  | generic base params hbase hparams =>
    simp only [map, mapList_eq, all_generic, hbase, List.forall_mem_map]
    exact and_congr_right fun _ => forall₂_congr hparams
  | union members ih =>
    simp only [map, mapList_eq, all_union, List.forall_mem_map]
    exact forall₂_congr ih

/--
Whether two types differ in their classes only, and these are related, each to the one in its place.
-/
def Paired (R : κ → ν → Prop) (s : Ty κ) (t : Ty ν) : Prop :=
  ∃ u : Ty (κ × ν), u.All (fun p => R p.1 p.2) ∧ u.map Prod.fst = s ∧ u.map Prod.snd = t

variable {R : κ → ν → Prop}

theorem Paired.imp {S : κ → ν → Prop} {s : Ty κ} {t : Ty ν} (h : Paired R s t)
    (hRS : ∀ c d, R c d → S c d)
    : Paired S s t := by
  rcases h with ⟨u, hu, hs, ht⟩
  exact ⟨u, hu.imp fun p => hRS p.1 p.2, hs, ht⟩

theorem paired_map {f : μ → κ} {g : μ → ν} {t : Ty μ} (h : t.All fun c => R (f c) (g c))
    : Paired R (t.map f) (t.map g) :=
  ⟨t.map fun c => (f c, g c), all_map.2 h, map_map _ _ t, map_map _ _ t⟩

theorem paired_self {R : κ → κ → Prop} {t : Ty κ} (h : t.All fun c => R c c) : Paired R t t := by
  have hmap : Paired R (t.map id) (t.map id) := paired_map h
  rwa [map_id] at hmap

end Ty

end Paired

namespace Ty

theorem display_array (f : κ → String) (t : Ty κ)
    : display f (.array t)
        =
      (if t.isUnion then "(" ++ display f t ++ ")" else display f t) ++ "[]" := by
  cases t with
  | union members => simp [display, isUnion, String.append_assoc]
  | _ => rfl

theorem displayList_map {f : κ → ν} {g : ν → String} {ts : List (Ty κ)}
    (h : ∀ t ∈ ts, display g (t.map f) = display (g ∘ f) t)
    : displayUnion g (ts.map (map f)) = displayUnion (g ∘ f) ts
        ∧ displayParams g (ts.map (map f)) = displayParams (g ∘ f) ts := by
  induction ts with
  | nil => exact ⟨rfl, rfl⟩
  | cons t rest ih =>
    have ht := h t List.mem_cons_self
    have hrest := ih fun u hu => h u (List.mem_cons_of_mem t hu)
    cases rest with
    | nil => simp [displayUnion, displayParams, ht]
    | cons u rest => simp_all [displayUnion, displayParams]

theorem display_map (f : κ → ν) (g : ν → String) (t : Ty κ)
    : display g (t.map f) = display (g ∘ f) t := by
  induction t with
  | unknown | any | nil | primitive p | cls c => rfl
  | array element ih => rw [map, display_array, display_array, ih, isUnion_map]
  | generic base params hbase hparams =>
    rw [map, mapList_eq, display, display, hbase, (displayList_map hparams).2]
  | union members ih => rw [map, mapList_eq, display, display, (displayList_map ih).1]

theorem Paired.text_eq {R : Class → Class → Prop} {s t : Ty Class} (h : Paired R s t)
    (hR : ∀ c d, R c d → c.displayName = d.displayName)
    : s.text = t.text := by
  rcases h with ⟨u, hu, rfl, rfl⟩
  have hnames : u.map (Class.displayName ∘ Prod.fst) = u.map (Class.displayName ∘ Prod.snd) :=
    map_congr (hu.imp fun p => hR p.1 p.2)
  unfold text
  rw [display_map, display_map]
  calc
    display (Class.displayName ∘ Prod.fst) u
      = display id (u.map (Class.displayName ∘ Prod.fst)) := (display_map _ id u).symm
    _ = display id (u.map (Class.displayName ∘ Prod.snd)) := by rw [hnames]
    _ = display (Class.displayName ∘ Prod.snd) u := display_map _ id u

end Ty

@[simp]
theorem Ty.erase_erase (t : Ty Class) : t.erase.erase = t.erase := by
  have hcomp : Class.erase ∘ Class.erase = Class.erase := by
    funext c
    simp
  unfold erase
  rw [map_map, hcomp]

@[simp]
theorem Ty.erase_lower (e : TypeExpr) : (Ty.lower e).erase = Ty.lower e := by
  unfold erase lower
  rw [map_map]
  rfl

end LuaClasses
