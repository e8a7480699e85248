import Mathlib.Data.List.TakeWhile
import LuaClasses.TypeExpr.Parser

/-!
This module contains the tokens of annotation syntax, and the texts that are sequences of tokens
with white space between them. The reader's two primitive steps are shown to take one token each: no
text starts with two different tokens, so a step that fails says that another token stands there.
-/

namespace LuaClasses

namespace Text

/--
Parts of the code space that hold all white space, and no letter or number.
-/
def blankZones : List (Nat × Nat) :=
  [(0, 0x20), (0x80, 0xa9), (0x1680, 0x1680), (0x2000, 0x206f), (0x3000, 0x3000)]

theorem inRanges_iff {ranges : List (Nat × Nat)} {c : Char}
    : inRanges ranges c = true ↔ ∃ r ∈ ranges, r.1 ≤ c.toNat ∧ c.toNat ≤ r.2 := by
  simp [inRanges]

theorem inRanges_blankZones {c : Char} (h : isBlank c = true) : inRanges blankZones c = true := by
  simp only [isBlank, Bool.or_eq_true, Bool.and_eq_true, decide_eq_true_eq, beq_iff_eq] at h
  simp only [inRanges_iff, blankZones, List.mem_cons, List.not_mem_nil, or_false, exists_eq_or_imp,
    exists_eq_left]
  omega

theorem blankZones_disjoint
    : ∀ r ∈ blankZones, ∀ r' ∈ alphanumericRanges, r.2 < r'.1 ∨ r'.2 < r.1 := by
  decide +kernel

-- Below 128 the table is not consulted, but it says the same there.
theorem isAlphanumeric_eq_inRanges (c : Char)
    : isAlphanumeric c = inRanges alphanumericRanges c := by
  unfold isAlphanumeric
  split
  . next hlow =>
    have hfirst : ∀ n : Fin 128,
        (Char.ofNat n).isAlphanum = inRanges (alphanumericRanges.take 3) (Char.ofNat n) := by
      decide +kernel
    have hrest : ∀ r ∈ alphanumericRanges.drop 3, 128 ≤ r.1 := by decide +kernel
    have hc := hfirst ⟨c.toNat, hlow⟩
    rw [Char.ofNat_toNat] at hc
    rw [hc, Bool.eq_iff_iff, inRanges_iff, inRanges_iff]
    constructor
    . rintro ⟨r, hr, hin⟩
      exact ⟨r, List.mem_of_mem_take hr, hin⟩
    . rintro ⟨r, hr, hin⟩
      rw [← List.take_append_drop 3 alphanumericRanges, List.mem_append] at hr
      rcases hr with hr | hr
      . exact ⟨r, hr, hin⟩
      . have := hrest r hr
        omega
  . rfl

theorem isAlphanumeric_eq_false_of_isBlank {c : Char} (h : isBlank c = true)
    : isAlphanumeric c = false := by
  rcases inRanges_iff.1 (inRanges_blankZones h) with ⟨r, hr, hfirst, hlast⟩
  rw [isAlphanumeric_eq_inRanges, Bool.eq_false_iff]
  intro halpha
  rcases inRanges_iff.1 halpha with ⟨r', hr', hfirst', hlast'⟩
  have := blankZones_disjoint r hr r' hr'
  omega

theorem skipBlank_eq_nil_iff {cs : List Char}
    : skipBlank cs = [] ↔ ∀ c ∈ cs, isBlank c = true :=
  List.dropWhile_eq_nil_iff

theorem isNameChar_eq_false_of_isBlank {c : Char} (h : isBlank c = true)
    : isNameChar c = false := by
  have hmarks : ∀ mark ∈ ['_', '.', '$'], isBlank mark = false := by
    simp only [List.mem_cons, List.not_mem_nil, or_false, forall_eq_or_imp, forall_eq]
    decide
  have hmark : ∀ mark ∈ ['_', '.', '$'], (c == mark) = false := by
    intro mark hmem
    rw [beq_eq_false_iff_ne]
    rintro rfl
    rw [hmarks c hmem] at h
    cases h
  simp only [isNameChar, isAlphanumeric_eq_false_of_isBlank h, Bool.false_or]
  simp [hmark]

end Text

namespace TypeExpr

/--
The characters of names: what the Unicode table lists as a letter or a number, and three marks.
-/
def IsNameChar (c : Char) : Prop :=
  (∃ r ∈ Text.alphanumericRanges, r.1 ≤ c.toNat ∧ c.toNat ≤ r.2) ∨ c = '_' ∨ c = '.' ∨ c = '$'

theorem isNameChar_iff {c : Char} : Text.isNameChar c = true ↔ IsNameChar c := by
  simp only [Text.isNameChar, IsNameChar, Text.isAlphanumeric_eq_inRanges, Bool.or_eq_true,
    Text.inRanges_iff, beq_iff_eq, or_assoc]

theorem isNameChar_eq_false_iff {c : Char} : Text.isNameChar c = false ↔ ¬IsNameChar c := by
  rw [← isNameChar_iff, Bool.not_eq_true]

def IsName (name : String) : Prop :=
  name.toList ≠ [] ∧ ∀ c ∈ name.toList, IsNameChar c

instance (name : String) : Decidable (IsName name) :=
  decidable_of_iff ((!name.toList.isEmpty && name.toList.all Text.isNameChar) = true)
    (by simp [IsName, isNameChar_iff])

/--
Whether a name ends in front of the text.
-/
def EndsName (cs : List Char) : Prop :=
  ∀ c ∈ cs.head?, ¬IsNameChar c

inductive Token where
  | name (n : String)
  | bar
  | brackets
  | less
  | comma
  | greater
  | opening
  | closing
  deriving DecidableEq

namespace Token

def chars : Token → List Char
  | .name n => n.toList
  | .bar => ['|']
  | .brackets => ['[', ']']
  | .less => ['<']
  | .comma => [',']
  | .greater => ['>']
  | .opening => ['(']
  | .closing => [')']

/--
Whether the characters of the token are all that belongs to it in front of `rest`. A name goes on as
long as it can.
-/
def Ends (rest : List Char) : Token → Prop
  | .name n => IsName n ∧ EndsName rest
  | _ => True

def isSymbol : Token → Bool
  | .name _ => false
  | _ => true

def symbols : List Token :=
  [.bar, .brackets, .less, .comma, .greater, .opening, .closing]

/--
Whether the text is the token, with white space before it, followed by `rest`.
-/
def Stands (t : Token) (cs rest : List Char) : Prop :=
  ∃ blanks, (∀ c ∈ blanks, Text.isBlank c = true) ∧ cs = blanks ++ (t.chars ++ rest) ∧ t.Ends rest

theorem head_chars {t : Token} {rest : List Char} (h : t.Ends rest)
    : ∃ c more, t.chars = c :: more ∧ Text.isBlank c = false ∧ Text.isNameChar c = !t.isSymbol := by
  cases t with
  | name n =>
    rcases h with ⟨⟨hne, hall⟩, _⟩
    rcases List.exists_cons_of_ne_nil hne with ⟨c, more, hn⟩
    have hc : Text.isNameChar c = true := by
      apply isNameChar_iff.2
      apply hall
      simp [hn]
    refine ⟨c, more, hn, ?_, hc⟩
    cases hblank : Text.isBlank c with
    | false => rfl
    | true =>
      rw [Text.isNameChar_eq_false_of_isBlank hblank] at hc
      cases hc
  | _ => exact ⟨_, _, rfl, by decide, by decide⟩

variable {t u : Token} {cs rest rest' : List Char}

theorem Stands.skipBlank_eq (h : t.Stands cs rest) : Text.skipBlank cs = t.chars ++ rest := by
  rcases h with ⟨blanks, hblanks, rfl, hends⟩
  rcases head_chars hends with ⟨c, more, hchars, hblank, _⟩
  unfold Text.skipBlank
  rw [List.dropWhile_append_of_pos hblanks, hchars]
  simp [hblank]

theorem Stands.of_skipBlank_eq (h : Text.skipBlank cs = t.chars ++ rest) (hends : t.Ends rest)
    : t.Stands cs rest := by
  refine ⟨cs.takeWhile Text.isBlank, ?_, ?_, hends⟩
  . intro c hc
    exact List.mem_takeWhile_imp hc
  . rw [← h]
    exact List.takeWhile_append_dropWhile.symm

theorem stands_iff : t.Stands cs rest ↔ Text.skipBlank cs = t.chars ++ rest ∧ t.Ends rest := by
  constructor
  . intro h
    exact ⟨h.skipBlank_eq, h.choose_spec.2.2⟩
  . intro h
    exact .of_skipBlank_eq h.1 h.2

theorem ends_of_isSymbol (h : t.isSymbol = true) : t.Ends rest := by
  cases t with
  | name n => cases h
  | _ => trivial

theorem stands_chars (h : t.isSymbol = true) (rest : List Char)
    : t.Stands (t.chars ++ rest) rest :=
  ⟨[], nofun, rfl, ends_of_isSymbol h⟩

theorem stands_name {n : String} (h : IsName n) (hrest : EndsName rest)
    : (name n).Stands (n.toList ++ rest) rest :=
  ⟨[], nofun, rfl, h, hrest⟩

theorem endsName_chars (h : t.isSymbol = true) (rest : List Char)
    : EndsName (t.chars ++ rest) := by
  have hends : t.Ends rest := ends_of_isSymbol h
  rcases head_chars hends with ⟨c, more, hchars, _, hname⟩
  rw [h, Bool.not_true, isNameChar_eq_false_iff] at hname
  rw [hchars]
  rintro _ ⟨⟩
  exact hname

theorem eat?_eq_some_iff (ht : t.isSymbol = true)
    : eat? t.chars cs = some rest ↔ t.Stands cs rest := by
  rw [stands_iff, and_iff_left (ends_of_isSymbol ht)]
  unfold eat?
  dsimp only
  split
  . next h =>
    rcases List.isPrefixOf_iff_prefix.1 h with ⟨more, hmore⟩
    rw [← hmore]
    simp [eq_comm]
  . next h =>
    simp only [reduceCtorEq, false_iff]
    intro hcs
    apply h
    rw [hcs]
    simp

theorem name?_eq_ok_iff {n : String} : name? cs = .ok (n, rest) ↔ (name n).Stands cs rest := by
  rw [stands_iff]
  unfold name? chars Ends
  dsimp only
  generalize Text.skipBlank cs = ds
  constructor
  . intro h
    split at h
    . cases h
    . next hne =>
      cases h
      rw [String.toList_ofList]
      refine ⟨List.takeWhile_append_dropWhile.symm, ⟨?_, ?_⟩, ?_⟩
      . simpa using hne
      . intro c hc
        rw [String.toList_ofList] at hc
        exact isNameChar_iff.1 (List.mem_takeWhile_imp hc)
      . intro c hc
        have hnot := List.head?_dropWhile_not Text.isNameChar ds
        rw [hc] at hnot
        exact isNameChar_eq_false_iff.1 hnot
  . rintro ⟨rfl, ⟨hne, hall⟩, hrest⟩
    have hname : ∀ c ∈ n.toList, Text.isNameChar c = true := by
      intro c hc
      exact isNameChar_iff.2 (hall c hc)
    have htake : rest.takeWhile Text.isNameChar = [] := by
      cases rest with
      | nil => rfl
      | cons c more => simp [isNameChar_eq_false_iff.2 (hrest c rfl)]
    have hdrop : rest.dropWhile Text.isNameChar = rest := by
      cases rest with
      | nil => rfl
      | cons c more => simp [isNameChar_eq_false_iff.2 (hrest c rfl)]
    rw [List.takeWhile_append_of_pos hname, List.dropWhile_append_of_pos hname, htake, hdrop,
      List.append_nil]
    split
    . next h => exact absurd h hne
    . rw [String.ofList_toList]

theorem eq_of_head_chars (ht : t.isSymbol = true) (hu : u.isSymbol = true)
    (h : t.chars.head? = u.chars.head?)
    : t = u := by
  have hmem : ∀ t : Token, t.isSymbol = true → t ∈ symbols := by
    intro t ht
    cases t with
    | name n => cases ht
    | _ => decide
  have hall : ∀ t ∈ symbols, ∀ u ∈ symbols, t.chars.head? = u.chars.head? → t = u := by decide
  exact hall t (hmem t ht) u (hmem u hu) h

theorem Stands.unique (h : t.Stands cs rest) (h' : u.Stands cs rest') : t = u := by
  have heq : t.chars ++ rest = u.chars ++ rest' := h.skipBlank_eq.symm.trans h'.skipBlank_eq
  rcases head_chars (stands_iff.1 h).2 with ⟨c, more, hchars, _, hsymbol⟩
  rcases head_chars (stands_iff.1 h').2 with ⟨c', more', hchars', _, hsymbol'⟩
  have hc : c = c' := by
    rw [hchars, hchars', List.cons_append, List.cons_append, List.cons.injEq] at heq
    exact heq.1
  subst hc
  rw [hsymbol, Bool.not_inj_iff] at hsymbol'
  cases ht : t.isSymbol with
  | true =>
    apply eq_of_head_chars ht (hsymbol' ▸ ht)
    rw [hchars, hchars']
    rfl
  | false =>
    rw [ht] at hsymbol'
    cases t with
    | name n =>
      cases u with
      | name n' =>
        have hname := name?_eq_ok_iff.2 h
        rw [name?_eq_ok_iff.2 h'] at hname
        cases hname
        rfl
      | _ => cases hsymbol'
    | _ => cases ht

theorem Stands.eat?_eq_none (h : t.Stands cs rest) (hu : u.isSymbol = true) (hne : t ≠ u)
    : eat? u.chars cs = none := by
  rw [Option.eq_none_iff_forall_ne_some]
  intro rest' heat
  exact hne (h.unique ((eat?_eq_some_iff hu).1 heat))

theorem Stands.length_lt (h : t.Stands cs rest) : rest.length < cs.length := by
  rcases h with ⟨blanks, _, rfl, hends⟩
  rcases head_chars hends with ⟨c, more, hchars, _⟩
  rw [hchars]
  simp
  omega

end Token

/--
Whether the text is the sequence of tokens, each with white space before it, followed by `rest`.
-/
inductive Spells : List Char → List Token → List Char → Prop where
  | nil : Spells cs [] cs
  | cons {t : Token} : t.Stands cs mid → Spells mid ts rest → Spells cs (t :: ts) rest

namespace Spells

variable {cs mid rest : List Char} {t : Token} {ts us : List Token}

theorem append (h : Spells cs ts mid) (h' : Spells mid us rest) : Spells cs (ts ++ us) rest := by
  induction h with
  | nil => exact h'
  | cons ht _ ih => exact .cons ht (ih h')

theorem of_cons (h : Spells cs (t :: ts) rest) : ∃ mid, t.Stands cs mid ∧ Spells mid ts rest := by
  cases h with
  | cons ht hts => exact ⟨_, ht, hts⟩

theorem of_append_cons (h : Spells cs (ts ++ t :: us) rest)
    : ∃ a b, Spells cs ts a ∧ t.Stands a b ∧ Spells b us rest := by
  induction ts generalizing cs with
  | nil =>
    rcases h.of_cons with ⟨b, ht, hus⟩
    exact ⟨cs, b, .nil, ht, hus⟩
  | cons u ts ih =>
    rcases h.of_cons with ⟨mid, hu, hmid⟩
    rcases ih hmid with ⟨a, b, hts, ht, hus⟩
    exact ⟨a, b, .cons hu hts, ht, hus⟩

theorem of_concat (h : Spells cs (ts ++ [t]) rest) : ∃ a, Spells cs ts a ∧ t.Stands a rest := by
  rcases h.of_append_cons with ⟨a, b, hts, ht, hnil⟩
  cases hnil
  exact ⟨a, hts, ht⟩

theorem length_le (h : Spells cs ts rest) : ts.length + rest.length ≤ cs.length := by
  induction h with
  | nil => simp
  | cons ht _ ih =>
    have := ht.length_lt
    simp only [List.length_cons]
    omega

end Spells

end TypeExpr

end LuaClasses
