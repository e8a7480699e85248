import LuaClasses.Proofs.Grammar
import LuaClasses.Proofs.NormalForm

/-!
This module contains the proof that the text of a type is read back as the same type. The text is
followed along the grammar: what the printer puts together are phrases, and a phrase stays one in
front of everything that cannot extend its last name.
-/

namespace LuaClasses

namespace TypeExpr

/--
Expressions that have a text: every name is one that can be read, and no generic type is without
parameters.
-/
inductive Plain : TypeExpr → Prop where
  | named : IsName n → Plain (.named n)
  | array : Plain e → Plain (.array e)
  | generic : IsName n → params ≠ [] → (∀ e ∈ params, Plain e) → Plain (.generic n params)
  | union : (∀ e ∈ members, Plain e) → Plain (.union members)

mutual

def decidePlain : (e : TypeExpr) → Decidable e.Plain
  | .named n => decidable_of_iff (IsName n) ⟨.named, fun | .named h => h⟩
  | .array e =>
    have := decidePlain e
    decidable_of_iff e.Plain ⟨.array, fun | .array h => h⟩
  | .generic n params =>
    have := decidePlainList params
    have : Decidable (params ≠ []) := decidable_of_iff (params.isEmpty = false) (by simp)
    decidable_of_iff (IsName n ∧ params ≠ [] ∧ ∀ e ∈ params, e.Plain)
      ⟨fun ⟨hn, hne, h⟩ => .generic hn hne h, fun | .generic hn hne h => ⟨hn, hne, h⟩⟩
  | .union members =>
    have := decidePlainList members
    decidable_of_iff (∀ e ∈ members, e.Plain) ⟨.union, fun | .union h => h⟩

def decidePlainList : (es : List TypeExpr) → Decidable (∀ e ∈ es, e.Plain)
  | [] => .isTrue nofun
  | e :: rest =>
    have := decidePlain e
    have := decidePlainList rest
    decidable_of_iff (e.Plain ∧ ∀ e ∈ rest, e.Plain) List.forall_mem_cons.symm

end

instance : DecidablePred Plain :=
  decidePlain

/--
Whether the text is the phrase, in front of everything that ends a name.
-/
def Written (cs : List Char) (p : Phrase) : Prop :=
  ∀ rest, EndsName rest → Matches p (cs ++ rest) rest

namespace Written

variable {cs cs' : List Char} {e : TypeExpr} {es : List TypeExpr} {n : String}

theorem named (h : IsName n) : Written n.toList (.primary (.named n)) := by
  intro rest hrest
  exact .named (Token.stands_name h hrest)

theorem generic (hn : IsName n) (h : Written cs (.params es))
    : Written (n.toList ++ (Token.less.chars ++ (cs ++ Token.greater.chars)))
        (.primary (.generic n es)) := by
  intro rest hrest
  simp only [List.append_assoc]
  apply Matches.generic
  . exact Token.stands_name hn (Token.endsName_chars (t := .less) rfl _)
  . exact Token.stands_chars (t := .less) rfl _
  . exact h _ (Token.endsName_chars (t := .greater) rfl rest)
  . exact Token.stands_chars (t := .greater) rfl rest

theorem grouped (h : Written cs (.union e))
    : Written (Token.opening.chars ++ (cs ++ Token.closing.chars)) (.primary e) := by
  intro rest hrest
  simp only [List.append_assoc]
  apply Matches.grouped
  . exact Token.stands_chars (t := .opening) rfl _
  . exact h _ (Token.endsName_chars (t := .closing) rfl rest)
  . exact Token.stands_chars (t := .closing) rfl rest

theorem bare (h : Written cs (.primary e)) : Written cs (.bracketed e) :=
  fun rest hrest => (h rest hrest).bare

theorem array (h : Written cs (.bracketed e))
    : Written (cs ++ Token.brackets.chars) (.bracketed (.array e)) := by
  intro rest hrest
  rw [List.append_assoc]
  apply Matches.array
  . exact h _ (Token.endsName_chars (t := .brackets) rfl rest)
  . exact Token.stands_chars (t := .brackets) rfl rest

theorem lastAlternative (h : Written cs (.bracketed e)) : Written cs (.alternatives [e]) :=
  fun rest hrest => (h rest hrest).lastAlternative

theorem alternative (h : Written cs (.bracketed e)) (hs : Written cs' (.alternatives es))
    : Written (cs ++ (Token.bar.chars ++ cs')) (.alternatives (e :: es)) := by
  intro rest hrest
  simp only [List.append_assoc]
  apply Matches.alternative
  . exact h _ (Token.endsName_chars (t := .bar) rfl _)
  . exact Token.stands_chars (t := .bar) rfl _
  . exact hs rest hrest

theorem ofAlternatives (h : Written cs (.alternatives es))
    : Written cs (.union (TypeExpr.ofAlternatives es)) :=
  fun rest hrest => (h rest hrest).ofAlternatives

theorem lastParam (h : Written cs (.union e)) : Written cs (.params [e]) :=
  fun rest hrest => (h rest hrest).lastParam

theorem param (h : Written cs (.union e)) (hs : Written cs' (.params es))
    : Written (cs ++ (Token.comma.chars ++ [' '] ++ cs')) (.params (e :: es)) := by
  intro rest hrest
  simp only [List.append_assoc]
  apply Matches.param
  . exact h _ (Token.endsName_chars (t := .comma) rfl _)
  . exact Token.stands_chars (t := .comma) rfl _
  . exact (hs rest hrest).blank rfl

end Written

end TypeExpr

namespace Ty

open TypeExpr

@[simp]
theorem ofExprs_eq (es : List TypeExpr) : ofExprs es = es.map ofExpr := by
  induction es with
  | nil => rfl
  | cons e rest ih => simp only [ofExprs, ih, List.map_cons]

@[simp]
theorem isUnion_ofName (n : String) : (ofName n).isUnion = false := by
  unfold ofName
  split <;> rfl

theorem isName_display {n : String} (h : IsName n) : IsName (display id (ofName n)) := by
  unfold ofName
  split <;> first | exact h | decide

theorem ofName_display (n : String) : ofName (display id (ofName n)) = ofName n := by
  fun_cases ofName n with
  | case11 =>
    rw [display, id, ofName]
    all_goals assumption
  | _ => rfl

/--
The types of expressions that have a text. Their unions are in normal form.
-/
inductive Readable : Ty String → Prop where
  | name : IsName n → Readable (ofName n)
  | array : Readable t → Readable (.array t)
  | generic : IsName n → params ≠ [] → (∀ t ∈ params, Readable t) →
      Readable (.generic (ofName n) params)
  | union : Proper members → (∀ t ∈ members, Readable t) → Readable (.union members)

theorem Readable.of_mem_parts {t u : Ty String} (h : t.Readable) (hu : u ∈ t.parts)
    : u.Readable ∧ u.isUnion = false := by
  by_cases ht : t.isUnion = false
  . rw [parts_of_not_isUnion ht, List.mem_singleton] at hu
    subst hu
    exact ⟨h, ht⟩
  . cases h with
    | union hproper hmembers => exact ⟨hmembers u hu, hproper.flat u hu⟩
    | name hn => simp at ht
    | array hel => exact absurd rfl ht
    | generic hn hne hparams => exact absurd rfl ht

theorem readable_ofExpr {e : TypeExpr} (h : e.Plain) : (ofExpr e).Readable := by
  induction h with
  | named hn =>
    rw [ofExpr]
    exact .name hn
  | array he ih =>
    rw [ofExpr]
    exact .array ih
  | generic hn hne hparams ih =>
    rw [ofExpr, ofExprs_eq]
    apply Readable.generic hn
    . simpa using hne
    . simpa using ih
  | union hmembers ih =>
    rw [ofExpr, ofExprs_eq]
    apply unionOf_induct
    . exact .name (n := "unknown") (by decide)
    . intro t ht u hu
      rcases List.mem_map.1 ht with ⟨e, he, rfl⟩
      exact (ih e he).of_mem_parts hu
    . exact fun members => .union

/--
Whether the text of the type is a phrase of an expression that denotes the type.
-/
def Shown (phrase : TypeExpr → Phrase) (t : Ty String) : Prop :=
  ∃ e, ofExpr e = t ∧ Written (t.display id).toList (phrase e)

/--
A way to write lists with a separator, on the side of the text and on the side of the grammar.
-/
structure Separated (item : TypeExpr → Phrase) (list : List TypeExpr → Phrase)
    (join : List (Ty String) → String) (separator : List Char) : Prop where
  join_one : ∀ t, join [t] = t.display id
  join_cons : ∀ t u rest, (join (t :: u :: rest)).toList
    = (t.display id).toList ++ (separator ++ (join (u :: rest)).toList)
  last : ∀ {cs e}, Written cs (item e) → Written cs (list [e])
  cons : ∀ {cs cs' e es}, Written cs (item e) → Written cs' (list es) →
    Written (cs ++ (separator ++ cs')) (list (e :: es))

theorem separated_union : Separated .bracketed .alternatives (displayUnion id) Token.bar.chars where
  join_one t := by rw [displayUnion]
  join_cons t u rest := by simp [displayUnion, Token.chars]
  last := Written.lastAlternative
  cons := Written.alternative

theorem separated_params
    : Separated .union .params (displayParams id) (Token.comma.chars ++ [' ']) where
  join_one t := by rw [displayParams]
  join_cons t u rest := by simp [displayParams, Token.chars]
  last := Written.lastParam
  cons := Written.param

theorem Separated.shown (h : Separated item list join separator) {ts : List (Ty String)}
    (hne : ts ≠ []) (hts : ∀ t ∈ ts, t.Shown item)
    : ∃ es, ofExprs es = ts ∧ Written (join ts).toList (list es) := by
  induction ts with
  | nil => exact absurd rfl hne
  | cons t rest ih =>
    rcases hts t List.mem_cons_self with ⟨e, he, hwritten⟩
    cases rest with
    | nil =>
      refine ⟨[e], by simp [he], ?_⟩
      rw [h.join_one]
      exact h.last hwritten
    | cons u rest =>
      rcases ih (by simp) fun v hv => hts v (List.mem_cons_of_mem t hv) with ⟨es, hes, hrest⟩
      refine ⟨e :: es, by rw [ofExprs, he, hes], ?_⟩
      rw [h.join_cons]
      exact h.cons hwritten hrest

namespace Shown

theorem union {t : Ty String} (h : t.Shown .bracketed) : t.Shown .union := by
  rcases h with ⟨e, he, hwritten⟩
  exact ⟨e, he, hwritten.lastAlternative.ofAlternatives⟩

theorem name {n : String} (h : IsName n) : (ofName n).Shown .bracketed := by
  refine ⟨.named (display id (ofName n)), ?_, ?_⟩
  . rw [ofExpr, ofName_display]
  . exact (Written.named (isName_display h)).bare

theorem generic {n : String} {params : List (Ty String)} (h : IsName n) (hne : params ≠ [])
    (hparams : ∀ t ∈ params, t.Shown .union)
    : (Ty.generic (ofName n) params).Shown .bracketed := by
  rcases separated_params.shown hne hparams with ⟨es, hes, hwritten⟩
  refine ⟨.generic (display id (ofName n)) es, ?_, ?_⟩
  . rw [ofExpr, ofName_display, hes]
  . simpa [display, Token.chars] using (Written.generic (isName_display h) hwritten).bare

theorem array {t : Ty String} (hunion : t.Shown .union)
    (hbracketed : t.isUnion = false → t.Shown .bracketed)
    : (Ty.array t).Shown .bracketed := by
  -- Only the text of a union is no bracketed phrase, and it is grouped
  cases ht : t.isUnion with
  | true =>
    rcases hunion with ⟨e, he, hwritten⟩
    refine ⟨.array e, by rw [ofExpr, he], ?_⟩
    simpa [display_array, ht, Token.chars] using hwritten.grouped.bare.array
  | false =>
    rcases hbracketed ht with ⟨e, he, hwritten⟩
    refine ⟨.array e, by rw [ofExpr, he], ?_⟩
    simpa [display_array, ht, Token.chars] using hwritten.array

theorem ofProper {members : List (Ty String)} (h : Proper members)
    (hmembers : ∀ t ∈ members, t.Shown .bracketed)
    : (Ty.union members).Shown .union := by
  have hne : members ≠ [] := List.ne_nil_of_length_pos (by have := h.two_le; omega)
  rcases separated_union.shown hne hmembers with ⟨es, hes, hwritten⟩
  refine ⟨TypeExpr.ofAlternatives es, ?_, ?_⟩
  . have hlength : 2 ≤ es.length := by simpa [← hes] using h.two_le
    rcases es with _ | ⟨e, _ | ⟨e', rest⟩⟩
    . simp at hlength
    . simp at hlength
    . rw [TypeExpr.ofAlternatives, ofExpr, hes, unionOf_of_proper h]
      simp
  . rw [display]
    exact hwritten.ofAlternatives

end Shown

theorem Readable.shown {t : Ty String} (h : t.Readable)
    : t.Shown .union ∧ (t.isUnion = false → t.Shown .bracketed) := by
  induction h with
  | name hn => exact ⟨(Shown.name hn).union, fun _ => .name hn⟩
  | array hel ih =>
    have hshown := Shown.array ih.1 ih.2
    exact ⟨hshown.union, fun _ => hshown⟩
  | generic hn hne hparams ih =>
    have hshown := Shown.generic hn hne fun t ht => (ih t ht).1
    exact ⟨hshown.union, fun _ => hshown⟩
  | union hproper hmembers ih =>
    exact ⟨.ofProper hproper fun t ht => (ih t ht).2 (hproper.flat t ht), nofun⟩

theorem mapListM_erase {ts : List (Ty String)}
    (h : ∀ t ∈ ts, ∀ s, (t.instantiate.run s).1.erase = t.map Class.reference) (s : QueryState)
    : mapList Class.erase ((mapListM Class.ofName ts).run s).1 = mapList Class.reference ts := by
  induction ts generalizing s with
  | nil => rfl
  | cons t rest ih =>
    rw [mapList, ← h t List.mem_cons_self s, ← ih fun u hu => h u (List.mem_cons_of_mem t hu)]
    rfl

theorem instantiate_erase (t : Ty String) (s : QueryState)
    : (t.instantiate.run s).1.erase = t.map Class.reference := by
  induction t generalizing s with
  | unknown | any | nil | primitive p | cls c => rfl
  | array element ih =>
    rw [map, ← ih s]
    rfl
  | generic base params hbase hparams =>
    rw [map, ← hbase s, ← mapListM_erase hparams (base.instantiate.run s).2]
    rfl
  | union members ih =>
    rw [map, ← mapListM_erase ih s]
    rfl

theorem text_instantiate (t : Ty String) (s : QueryState)
    : (t.instantiate.run s).1.text = t.display id := by
  have herase : Class.displayName = Class.displayName ∘ Class.erase := rfl
  have hreference : Class.displayName ∘ Class.reference = id := by
    have hempty : Flags.empty.contains .anonymousTable = false := by decide
    funext name
    simp [Class.displayName, Class.reference, hempty]
  unfold text
  rw [herase, ← display_map]
  change display _ (erase _) = _
  rw [instantiate_erase, display_map, hreference]

theorem beq_of_erase_eq {t u : Ty Class} (h : t.erase = u.erase) : (t == u) = true := by
  rw [← beq_map Class.erase_beq]
  change (t.erase == u.erase) = true
  rw [h, BEq.rfl]

end Ty

namespace TypeExpr

/--
The text of the type of an expression is an expression of the same type.
-/
theorem parse_text_instantiate {e : TypeExpr} (h : e.Plain) (s : QueryState)
    : ∃ e', parse ((Ty.ofExpr e).instantiate.run s).1.text = .ok e'
        ∧ Ty.ofExpr e' = Ty.ofExpr e
        ∧ ∀ s', (((Ty.ofExpr e').instantiate.run s').1
            == ((Ty.ofExpr e).instantiate.run s).1) = true := by
  rcases (Ty.readable_ofExpr h).shown.1 with ⟨e', he', hwritten⟩
  refine ⟨e', ?_, he', ?_⟩
  . have hmatches : Matches (.union e') ((Ty.ofExpr e).display id).toList [] := by
      simpa using hwritten [] nofun
    rw [Ty.text_instantiate]
    exact parse_of_matches hmatches nofun
  . intro s'
    apply Ty.beq_of_erase_eq
    rw [Ty.instantiate_erase, Ty.instantiate_erase, he']

/--
An expression with everything that its type does not keep: second names of types, a repeated member,
a union in a union, a union of nothing and a union of one type.
-/
def crowded : TypeExpr :=
  .union [
    .array (.union [.named "integer", .union [.named "Dog", .named "number"]]),
    .array (.union [.array (.named "Cat")]),
    .generic "table" [.named "string", .union [.named "void", .named "a.b_$1", .named "nil"]],
    .union []]

theorem parse_text_instantiate_crowded
    : crowded.Plain
        ∧ (Ty.ofExpr crowded).display id
          = "(number|Dog)[]|Cat[][]|table<string, nil|a.b_$1>|unknown"
        ∧ ∃ e', parse ((Ty.ofExpr crowded).instantiate.run {}).1.text = .ok e'
          ∧ Ty.ofExpr e' = Ty.ofExpr crowded
          ∧ ∀ s', (((Ty.ofExpr e').instantiate.run s').1
              == ((Ty.ofExpr crowded).instantiate.run {}).1) = true :=
  ⟨by decide +kernel, by decide +kernel, parse_text_instantiate (by decide +kernel) {}⟩

end TypeExpr

end LuaClasses
