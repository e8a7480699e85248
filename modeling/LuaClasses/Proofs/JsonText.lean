import LuaClasses.Json.Reader
import LuaClasses.Json.Writer

/-!
This module contains the proof that the compact text of a JSON value is read back as that value,
whatever characters are in its strings. Numbers are left out: nothing that is written and read back
has any.
-/

namespace LuaClasses
namespace Json

@[elab_as_elim, induction_eliminator]
theorem induct {motive : Json → Prop} (null : motive .null) (bool : ∀ b, motive (.bool b))
    (number : ∀ n, motive (.number n)) (string : ∀ s, motive (.string s))
    (array : ∀ elements, (∀ v ∈ elements, motive v) → motive (.array elements))
    (object : ∀ entries, (∀ e ∈ entries, motive e.2) → motive (.object entries))
    (v : Json)
    : motive v :=
  @Json.rec motive (fun vs => ∀ v ∈ vs, motive v) (fun es => ∀ e ∈ es, motive e.2)
    (fun e => motive e.2) null bool number string array object
    (fun _ h => absurd h List.not_mem_nil)
    (fun _ _ hhead htail _ h => (List.mem_cons.1 h).elim (· ▸ hhead) (htail _ ·))
    (fun _ h => absurd h List.not_mem_nil)
    (fun _ _ hhead htail _ h => (List.mem_cons.1 h).elim (· ▸ hhead) (htail _ ·))
    (fun _ _ h => h) v

mutual

/--
Whether a value has no numbers in it, and all its strings are texts.
-/
def isTextual : Json → Bool
  | .null => true
  | .bool _ => true
  | .number _ => false
  | .string s => s.isSome
  | .array elements => areTextual elements
  | .object entries => areTextualEntries entries

def areTextual : List Json → Bool
  | [] => true
  | v :: rest => isTextual v && areTextual rest

def areTextualEntries : List (Option String × Json) → Bool
  | [] => true
  | (key, v) :: rest => key.isSome && isTextual v && areTextualEntries rest

end

@[simp]
theorem isTextual_array {elements : List Json}
    : (array elements).isTextual = true ↔ ∀ v ∈ elements, v.isTextual = true := by
  rw [isTextual]
  induction elements with
  | nil => simp [areTextual]
  | cons v rest ih => simp [areTextual, ih]

@[simp]
theorem isTextual_object {entries : List (Option String × Json)}
    : (object entries).isTextual = true
        ↔
      ∀ e ∈ entries, e.1.isSome = true ∧ e.2.isTextual = true := by
  rw [isTextual]
  induction entries with
  | nil => simp [areTextualEntries]
  | cons e rest ih =>
    rcases e with ⟨key, v⟩
    simp [areTextualEntries, ih]

section Literal

theorem joinPieces?_unit {n : Nat} (h : n < 0xd800) (pieces : List Piece)
    : joinPieces? (.unit n :: pieces) = (Char.ofNat n :: ·) <$> joinPieces? pieces := by
  have hhigh : isHighSurrogate n = false := by
    simp [isHighSurrogate]
    omega
  have hlow : isLowSurrogate n = false := by
    simp [isLowSurrogate]
    omega
  rcases pieces with _ | ⟨_ | _, rest⟩
  . simp [joinPieces?, hhigh, hlow]
  . simp [joinPieces?, hhigh, hlow]
  . simp [joinPieces?, hhigh, hlow]

/--
The characters are one piece of a string literal, which stands for `c`.
-/
def StandsFor (cs : List Char) (c : Char) : Prop :=
  ∃ piece,
    (∀ rest, pieces? (cs ++ rest) = (fun p => (piece :: p.1, p.2)) <$> pieces? rest) ∧
    ∀ pieces, joinPieces? (piece :: pieces) = (c :: ·) <$> joinPieces? pieces

namespace StandsFor

theorem short {letter c : Char} (h : shortEscape? letter = some c)
    : StandsFor ['\\', letter] c := by
  refine ⟨.char c, ?_, fun _ => rfl⟩
  intro rest
  have hletter : letter ≠ 'u' := by
    rintro rfl
    simp [shortEscape?] at h
  rw [List.cons_append, List.singleton_append, pieces?]
  . rw [h]
    cases pieces? rest <;> rfl
  . intro _ _ _ _ _ hu
    exact absurd hu hletter

theorem control {letter c : Char} {n : Nat} (h : shortEscape? letter = some (Char.ofNat n))
    (hc : (c.toNat == n) = true)
    : StandsFor ['\\', letter] c := by
  apply short
  rw [h, ← eq_of_beq hc, Char.ofNat_toNat]

theorem unit {c : Char} (h : c.toNat < 32)
    : StandsFor ['\\', 'u', '0', '0', Nat.digitChar (c.toNat / 16), Nat.digitChar (c.toNat % 16)]
        c := by
  refine ⟨.unit c.toNat, ?_, ?_⟩
  . intro rest
    have hzero : Text.hexDigit? '0' = some 0 := rfl
    have hunit : 4096 * 0 + 256 * 0 + 16 * (c.toNat / 16) + c.toNat % 16 = c.toNat := by omega
    simp only [List.cons_append, List.nil_append]
    rw [pieces?, hexUnit?, hzero, Text.hexDigit?_digitChar (by omega),
      Text.hexDigit?_digitChar (by omega)]
    simp only [Option.bind_eq_bind, Option.bind_some, Option.pure_def, hunit]
    cases pieces? rest <;> rfl
  . intro pieces
    rw [joinPieces?_unit (by omega), Char.ofNat_toNat]

theorem plain {c : Char} (hquote : c ≠ '"') (hbackslash : c ≠ '\\') (h : ¬c.toNat < 32)
    : StandsFor [c] c := by
  refine ⟨.char c, ?_, fun _ => rfl⟩
  intro rest
  rw [List.singleton_append, pieces?]
  . simp only [h, if_false]
    cases pieces? rest <;> rfl
  . exact hquote
  . intro _ _ _ _ _ hc
    exact absurd hc hbackslash
  . intro _ _ hc
    exact absurd hc hbackslash

end StandsFor

theorem standsFor_escapeChar (c : Char) : StandsFor (escapeChar c) c := by
  unfold escapeChar
  split
  . next hc => exact .short (by simp_all [shortEscape?])
  split
  . next hc => exact .short (by simp_all [shortEscape?])
  split
  . next hc => exact .control rfl hc
  split
  . next hc => exact .control rfl hc
  split
  . next hc => exact .control rfl hc
  split
  . next hc => exact .control rfl hc
  split
  . next hc => exact .control rfl hc
  split
  . next hc => exact .unit hc
  . next hquote hbackslash _ _ _ _ _ hc =>
    exact .plain (by simpa using hquote) (by simpa using hbackslash) hc

theorem pieces?_literal (cs rest : List Char)
    : ∃ pieces, pieces? (cs.flatMap escapeChar ++ '"' :: rest) = some (pieces, rest) ∧
        joinPieces? pieces = some cs := by
  induction cs with
  | nil => exact ⟨[], by simp [pieces?], rfl⟩
  | cons c cs ih =>
    rcases ih with ⟨pieces, hpieces, hjoin⟩
    rcases standsFor_escapeChar c with ⟨piece, hpiece, hchar⟩
    refine ⟨piece :: pieces, ?_, ?_⟩
    . rw [List.flatMap_cons, List.append_assoc, hpiece, hpieces]
      rfl
    . rw [hchar, hjoin]
      rfl

theorem stringTail?_literal (s : String) (rest : List Char)
    : stringTail? (s.toList.flatMap escapeChar ++ '"' :: rest) = some (some s, rest) := by
  rcases pieces?_literal s.toList rest with ⟨pieces, hpieces, hjoin⟩
  unfold stringTail?
  rw [hpieces]
  simp [hjoin]

end Literal

section Compact

theorem skipSpace_cons {c : Char} (h : isSpace c = false) (cs : List Char)
    : skipSpace (c :: cs) = c :: cs := by
  apply List.dropWhile_cons_of_neg
  simp [h]

theorem compactChars_head {v : Json} (h : v.isTextual = true)
    : ∃ c cs, compactChars v = c :: cs ∧ isSpace c = false ∧ c ≠ ']' := by
  cases v with
  | null => exact ⟨'n', _, rfl, rfl, by decide⟩
  | bool b => cases b <;> exact ⟨_, _, rfl, rfl, by decide⟩
  | number n => cases h
  | string s => cases s <;> exact ⟨'"', _, rfl, rfl, by decide⟩
  | array elements => cases elements <;> exact ⟨'[', _, rfl, rfl, by decide⟩
  | object entries => cases entries <;> exact ⟨'\x7b', _, rfl, rfl, by decide⟩

/--
The compact form of the value is read back in front of any text. Every step of the reader uses up a
character of it, so its length is enough as a bound on the steps.
-/
def ReadsBack (v : Json) : Prop :=
  ∀ fuel rest, (compactChars v).length ≤ fuel →
    value? fuel (compactChars v ++ rest) = some (v, rest)

theorem value?_array {v : Json} (h : v.isTextual = true) (fuel : Nat) (cs : List Char)
    : value? (fuel + 1) ('[' :: (compactChars v ++ cs))
        =
      (fun p => (.array p.1, p.2)) <$> elements? fuel (compactChars v ++ cs) := by
  rcases compactChars_head h with ⟨c, cs', hc, hspace, hbracket⟩
  rw [hc, List.cons_append, value?, skipSpace_cons rfl]
  simp [skipSpace_cons hspace, hbracket]

theorem elements?_last {fuel : Nat} {cs rest : List Char} {v : Json}
    (h : value? fuel cs = some (v, ']' :: rest))
    : elements? (fuel + 1) cs = some ([v], rest) := by
  rw [elements?, h]
  rfl

theorem elements?_next {fuel : Nat} {cs cs' : List Char} {v : Json}
    (h : value? fuel cs = some (v, ',' :: cs'))
    : elements? (fuel + 1) cs = (fun p => (v :: p.1, p.2)) <$> elements? fuel cs' := by
  rw [elements?, h]
  rfl

theorem elements?_compact {v : Json} {vs : List Json} (h : ∀ u ∈ v :: vs, u.ReadsBack)
    {fuel : Nat} (rest : List Char) (hfuel : (compactChars v ++ compactElements vs).length ≤ fuel)
    : elements? fuel (compactChars v ++ (compactElements vs ++ rest)) = some (v :: vs, rest) := by
  induction vs generalizing v fuel with
  | nil =>
    rw [compactElements, List.length_append, List.length_singleton] at hfuel
    rcases fuel with _ | fuel
    . omega
    apply elements?_last
    exact h v List.mem_cons_self fuel _ (by omega)
  | cons u us ih =>
    rw [compactElements, List.cons_append, List.length_append, List.length_cons] at hfuel
    rcases fuel with _ | fuel
    . omega
    have hv := h v List.mem_cons_self fuel (compactElements (u :: us) ++ rest) (by omega)
    simp only [compactElements, List.cons_append, List.append_assoc] at hv ⊢
    rw [elements?_next hv, ih (fun w hw => h w (List.mem_cons_of_mem _ hw)) (by omega)]
    rfl

theorem literal_append (s : String) (rest : List Char)
    : literal (some s) ++ rest = '"' :: (s.toList.flatMap escapeChar ++ '"' :: rest) := by
  simp [literal]

theorem value?_object (fuel : Nat) (key : String) (cs : List Char)
    : value? (fuel + 1) ('\x7b' :: (literal (some key) ++ cs))
        =
      (fun p => (.object p.1, p.2)) <$> entries? fuel (literal (some key) ++ cs) := by
  have hquote (cs : List Char) : skipSpace ('"' :: cs) = '"' :: cs := skipSpace_cons rfl cs
  rw [literal_append, value?, skipSpace_cons rfl]
  simp [hquote]

theorem entries?_last {fuel : Nat} {key : String} {cs rest : List Char} {v : Json}
    (h : value? fuel cs = some (v, '\x7d' :: rest))
    : entries? (fuel + 1) (literal (some key) ++ ':' :: cs) = some ([(some key, v)], rest) := by
  have hcolon : skipSpace (':' :: cs) = ':' :: cs := skipSpace_cons rfl _
  have hbrace : skipSpace ('\x7d' :: rest) = '\x7d' :: rest := skipSpace_cons rfl _
  rw [literal_append, entries?, skipSpace_cons rfl]
  simp [stringTail?_literal, hcolon, h, hbrace]

theorem entries?_next {fuel : Nat} {key : String} {cs cs' : List Char} {v : Json}
    (h : value? fuel cs = some (v, ',' :: cs'))
    : entries? (fuel + 1) (literal (some key) ++ ':' :: cs)
        =
      (fun p => ((some key, v) :: p.1, p.2)) <$> entries? fuel cs' := by
  have hcolon : skipSpace (':' :: cs) = ':' :: cs := skipSpace_cons rfl _
  have hcomma : skipSpace (',' :: cs') = ',' :: cs' := skipSpace_cons rfl _
  rw [literal_append, entries?, skipSpace_cons rfl]
  simp [stringTail?_literal, hcolon, h, hcomma]

theorem entries?_compact {key : String} {v : Json} {es : List (Option String × Json)}
    (hv : v.ReadsBack) (h : ∀ e ∈ es, e.1.isSome = true ∧ e.2.ReadsBack) {fuel : Nat}
    (rest : List Char)
    (hfuel : (literal (some key) ++ ':' :: compactChars v ++ compactEntries es).length ≤ fuel)
    : entries? fuel (literal (some key) ++ ':' :: (compactChars v ++ (compactEntries es ++ rest)))
        =
      some ((some key, v) :: es, rest) := by
  induction es generalizing key v fuel with
  | nil =>
    simp only [compactEntries, List.length_append, List.length_cons, List.length_nil] at hfuel
    rcases fuel with _ | fuel
    . omega
    apply entries?_last
    exact hv fuel _ (by omega)
  | cons e es ih =>
    rcases e with ⟨key', v'⟩
    rcases h _ List.mem_cons_self with ⟨hkey', hv'⟩
    rcases Option.isSome_iff_exists.1 hkey' with ⟨key', rfl⟩
    simp only [compactEntries, List.length_append, List.length_cons] at hfuel
    rcases fuel with _ | fuel
    . omega
    have hfirst := hv fuel (compactEntries ((some key', v') :: es) ++ rest) (by omega)
    simp only [compactEntries, List.cons_append, List.append_assoc] at hfirst ⊢
    rw [entries?_next hfirst, ih hv' (fun e he => h e (List.mem_cons_of_mem _ he)) (by simp; omega)]
    rfl

theorem ReadsBack.of_succ {v : Json} (h : v.isTextual = true)
    (hsucc : ∀ fuel rest, (compactChars v).length ≤ fuel + 1 →
      value? (fuel + 1) (compactChars v ++ rest) = some (v, rest))
    : v.ReadsBack := by
  intro fuel rest hfuel
  rcases compactChars_head h with ⟨_, _, hhead, _, _⟩
  rcases fuel with _ | fuel
  . simp [hhead] at hfuel
  . exact hsucc fuel rest hfuel

theorem readsBack {v : Json} (h : v.isTextual = true) : v.ReadsBack := by
  induction v with
  | null =>
    apply ReadsBack.of_succ h
    intro fuel rest _
    rw [value?]
    rfl
  | bool b =>
    apply ReadsBack.of_succ h
    intro fuel rest _
    cases b <;> (rw [value?]; rfl)
  | number n => cases h
  | string s =>
    apply ReadsBack.of_succ h
    intro fuel rest _
    rcases Option.isSome_iff_exists.1 h with ⟨s, rfl⟩
    rw [compactChars, literal_append, value?, skipSpace_cons rfl]
    simp [stringTail?_literal]
  | array elements ih =>
    apply ReadsBack.of_succ h
    intro fuel rest hfuel
    cases elements with
    | nil =>
      rw [value?]
      rfl
    | cons v vs =>
      rw [isTextual_array] at h
      have hread : ∀ u ∈ v :: vs, u.ReadsBack := fun u hu => ih u hu (h u hu)
      rw [compactChars, List.cons_append, List.length_cons] at hfuel
      simp only [compactChars, List.cons_append, List.append_assoc]
      rw [value?_array (h v List.mem_cons_self), elements?_compact hread rest (by omega)]
      rfl
  | object entries ih =>
    apply ReadsBack.of_succ h
    intro fuel rest hfuel
    cases entries with
    | nil =>
      rw [value?]
      rfl
    | cons e es =>
      rcases e with ⟨key, v⟩
      rw [isTextual_object] at h
      rcases h _ List.mem_cons_self with ⟨hkey, hv⟩
      rcases Option.isSome_iff_exists.1 hkey with ⟨key, rfl⟩
      have hes : ∀ e ∈ es, e.1.isSome = true ∧ e.2.ReadsBack := by
        intro e he
        have hmem := List.mem_cons_of_mem (some key, v) he
        exact ⟨(h e hmem).1, ih e hmem (h e hmem).2⟩
      have hread : v.ReadsBack := ih _ List.mem_cons_self hv
      rw [compactChars, List.cons_append, List.cons_append, List.length_cons] at hfuel
      simp only [compactChars, List.cons_append, List.append_assoc]
      rw [value?_object, entries?_compact hread hes rest (by omega)]
      rfl

end Compact

theorem parse?_compact {v : Json} (h : v.isTextual = true) : parse? v.compact = some v := by
  have hread := readsBack h (2 * (compactChars v).length + 1) [] (by omega)
  rw [List.append_nil] at hread
  rw [parse?, compact, String.toList_ofList, ofChars?, hread]
  rfl

end Json
end LuaClasses
