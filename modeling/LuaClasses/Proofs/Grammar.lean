import LuaClasses.Proofs.Tokens

/-!
This module contains the grammar of annotation syntax, and the proof that the reader accepts exactly
the texts that the grammar derives, with their trees. The reader never goes back on a choice that it
made by the next token, so the proof has to show that no other choice could have been right.
-/

namespace LuaClasses

namespace TypeExpr

/--
A phrase of the grammar, with its tree.
-/
inductive Phrase where
  | union (e : TypeExpr)
  | alternatives (es : List TypeExpr)
  | bracketed (e : TypeExpr)
  | primary (e : TypeExpr)
  | params (es : List TypeExpr)

/--
The grammar: whether the tokens are the phrase.
-/
inductive Derives : Phrase → List Token → Prop where
  -- A union is one or more bracketed types with bars between them.
  | single : Derives (.alternatives [e]) ts → Derives (.union e) ts
  | several : Derives (.alternatives es) ts → 2 ≤ es.length → Derives (.union (.union es)) ts
  | lastAlternative : Derives (.bracketed e) ts → Derives (.alternatives [e]) ts
  | alternative : Derives (.bracketed e) ts → Derives (.alternatives es) us →
      Derives (.alternatives (e :: es)) (ts ++ .bar :: us)
  -- A bracketed type is a primary type with any number of bracket pairs behind it.
  | bare : Derives (.primary e) ts → Derives (.bracketed e) ts
  | array : Derives (.bracketed e) ts → Derives (.bracketed (.array e)) (ts ++ [.brackets])
  -- A primary type is a name, a name with parameters, or a union in parentheses.
  | named : Derives (.primary (.named n)) [.name n]
  | generic : Derives (.params es) ts →
      Derives (.primary (.generic n es)) (.name n :: .less :: (ts ++ [.greater]))
  | grouped : Derives (.union e) ts → Derives (.primary e) (.opening :: (ts ++ [.closing]))
  -- The parameters are one or more unions with commas between them.
  | lastParam : Derives (.union e) ts → Derives (.params [e]) ts
  | param : Derives (.union e) ts → Derives (.params es) us →
      Derives (.params (e :: es)) (ts ++ .comma :: us)

/--
Whether the text is the phrase, followed by `rest`.
-/
def Matches (p : Phrase) (cs rest : List Char) : Prop :=
  ∃ ts, Spells cs ts rest ∧ Derives p ts

namespace Matches

variable {cs a b c rest : List Char} {e : TypeExpr} {es : List TypeExpr} {n : String}

theorem ofAlternatives (h : Matches (.alternatives es) cs rest)
    : Matches (.union (ofAlternatives es)) cs rest := by
  rcases h with ⟨ts, hts, hes⟩
  match es with
  | [] => cases hes
  | [e] => exact ⟨ts, hts, .single hes⟩
  | _ :: _ :: _ => exact ⟨ts, hts, .several hes (by simp)⟩

theorem lastAlternative (h : Matches (.bracketed e) cs rest)
    : Matches (.alternatives [e]) cs rest := by
  rcases h with ⟨ts, hts, he⟩
  exact ⟨ts, hts, .lastAlternative he⟩

theorem alternative (h : Matches (.bracketed e) cs a) (hbar : Token.bar.Stands a b)
    (hs : Matches (.alternatives es) b rest)
    : Matches (.alternatives (e :: es)) cs rest := by
  rcases h with ⟨ts, hts, he⟩
  rcases hs with ⟨us, hus, hes⟩
  exact ⟨_, hts.append (.cons hbar hus), .alternative he hes⟩

theorem bare (h : Matches (.primary e) cs rest) : Matches (.bracketed e) cs rest := by
  rcases h with ⟨ts, hts, he⟩
  exact ⟨ts, hts, .bare he⟩

theorem array (h : Matches (.bracketed e) cs a) (hbrackets : Token.brackets.Stands a rest)
    : Matches (.bracketed (.array e)) cs rest := by
  rcases h with ⟨ts, hts, he⟩
  exact ⟨_, hts.append (.cons hbrackets .nil), .array he⟩

theorem named (h : (Token.name n).Stands cs rest) : Matches (.primary (.named n)) cs rest :=
  ⟨_, .cons h .nil, .named⟩

theorem generic (hname : (Token.name n).Stands cs a) (hless : Token.less.Stands a b)
    (h : Matches (.params es) b c) (hgreater : Token.greater.Stands c rest)
    : Matches (.primary (.generic n es)) cs rest := by
  rcases h with ⟨ts, hts, hes⟩
  exact ⟨_, .cons hname (.cons hless (hts.append (.cons hgreater .nil))), .generic hes⟩

theorem grouped (hopening : Token.opening.Stands cs a) (h : Matches (.union e) a b)
    (hclosing : Token.closing.Stands b rest)
    : Matches (.primary e) cs rest := by
  rcases h with ⟨ts, hts, he⟩
  exact ⟨_, .cons hopening (hts.append (.cons hclosing .nil)), .grouped he⟩

theorem lastParam (h : Matches (.union e) cs rest) : Matches (.params [e]) cs rest := by
  rcases h with ⟨ts, hts, he⟩
  exact ⟨ts, hts, .lastParam he⟩

theorem param (h : Matches (.union e) cs a) (hcomma : Token.comma.Stands a b)
    (hs : Matches (.params es) b rest)
    : Matches (.params (e :: es)) cs rest := by
  rcases h with ⟨ts, hts, he⟩
  rcases hs with ⟨us, hus, hes⟩
  exact ⟨_, hts.append (.cons hcomma hus), .param he hes⟩

end Matches

theorem bind_eq_ok_iff {x : Except ε α} {f : α → Except ε β} {b : β}
    : x >>= f = .ok b ↔ ∃ a, x = .ok a ∧ f a = .ok b := by
  cases x with
  | error e => exact ⟨nofun, nofun⟩
  | ok a => exact ⟨fun h => ⟨a, rfl, h⟩, fun ⟨_, ha, h⟩ => by cases ha; exact h⟩

theorem stands_of_eat? (t : Token) {cs rest : List Char} (h : eat? t.chars cs = some rest)
    (ht : t.isSymbol = true)
    : t.Stands cs rest :=
  (Token.eat?_eq_some_iff ht).1 h

theorem brackets_matches {cs mid : List Char} {e : TypeExpr} (h : Matches (.bracketed e) cs mid)
    (n : Nat)
    : Matches (.bracketed (brackets n e mid).1) cs (brackets n e mid).2 := by
  induction n generalizing e mid with
  | zero => exact h
  | succ n ih =>
    unfold brackets
    split
    . next rest heat => exact ih (h.array (stands_of_eat? .brackets heat rfl))
    . exact h

/--
What is read in at most this many steps is a phrase of the grammar.
-/
structure Sound (fuel : Nat) : Prop where
  union : ∀ {cs e rest}, union? fuel cs = .ok (e, rest) → Matches (.union e) cs rest
  alternatives : ∀ {cs es rest}, alternatives? fuel cs = .ok (es, rest) →
    Matches (.alternatives es) cs rest
  primary : ∀ {cs e rest}, primary? fuel cs = .ok (e, rest) → Matches (.primary e) cs rest
  params : ∀ {cs es rest}, params? fuel cs = .ok (es, rest) → Matches (.params es) cs rest

namespace Sound

variable {fuel : Nat} {cs rest : List Char} {e : TypeExpr} {es : List TypeExpr}

theorem union_succ (hsound : Sound fuel) (h : union? (fuel + 1) cs = .ok (e, rest))
    : Matches (.union e) cs rest := by
  rcases bind_eq_ok_iff.1 h with ⟨⟨es, mid⟩, hes, hreturn⟩
  cases hreturn
  exact (hsound.alternatives hes).ofAlternatives

theorem alternatives_succ (hsound : Sound fuel) (h : alternatives? (fuel + 1) cs = .ok (es, rest))
    : Matches (.alternatives es) cs rest := by
  rcases bind_eq_ok_iff.1 h with ⟨⟨e, mid⟩, he, hrest⟩
  have hbracketed := brackets_matches (hsound.primary he).bare mid.length
  dsimp only at hrest
  split at hrest
  . next heat =>
    rcases bind_eq_ok_iff.1 hrest with ⟨⟨es, _⟩, hes, hreturn⟩
    cases hreturn
    exact hbracketed.alternative (stands_of_eat? .bar heat rfl) (hsound.alternatives hes)
  . cases hrest
    exact hbracketed.lastAlternative

theorem primary_succ (hsound : Sound fuel) (h : primary? (fuel + 1) cs = .ok (e, rest))
    : Matches (.primary e) cs rest := by
  unfold primary? at h
  split at h
  . next hopening =>
    rcases bind_eq_ok_iff.1 h with ⟨⟨e, _⟩, he, hrest⟩
    dsimp only at hrest
    split at hrest
    . next hclosing =>
      cases hrest
      exact .grouped (stands_of_eat? .opening hopening rfl) (hsound.union he)
        (stands_of_eat? .closing hclosing rfl)
    . cases hrest
  . rcases bind_eq_ok_iff.1 h with ⟨⟨n, _⟩, hn, hrest⟩
    have hname := Token.name?_eq_ok_iff.1 hn
    dsimp only at hrest
    split at hrest
    . next hless =>
      rcases bind_eq_ok_iff.1 hrest with ⟨⟨es, _⟩, hes, hrest⟩
      dsimp only at hrest
      split at hrest
      . next hgreater =>
        cases hrest
        exact .generic hname (stands_of_eat? .less hless rfl) (hsound.params hes)
          (stands_of_eat? .greater hgreater rfl)
      . cases hrest
    . cases hrest
      exact .named hname

theorem params_succ (hsound : Sound fuel) (h : params? (fuel + 1) cs = .ok (es, rest))
    : Matches (.params es) cs rest := by
  rcases bind_eq_ok_iff.1 h with ⟨⟨e, mid⟩, he, hrest⟩
  dsimp only at hrest
  split at hrest
  . next heat =>
    rcases bind_eq_ok_iff.1 hrest with ⟨⟨es, _⟩, hes, hreturn⟩
    cases hreturn
    exact (hsound.union he).param (stands_of_eat? .comma heat rfl) (hsound.params hes)
  . cases hrest
    exact (hsound.union he).lastParam

end Sound

theorem sound (fuel : Nat) : Sound fuel := by
  induction fuel with
  | zero => exact ⟨nofun, nofun, nofun, nofun⟩
  | succ fuel ih => exact ⟨ih.union_succ, ih.alternatives_succ, ih.primary_succ, ih.params_succ⟩

namespace Phrase

/--
The tokens that must not follow a phrase, because the reader would take them as a part of it.
-/
def stops : Phrase → List Token
  | .primary _ | .bracketed _ => [.less]
  | .alternatives _ | .union _ => [.less, .brackets, .bar]
  | .params _ => [.less, .brackets, .bar, .comma]

/--
How far the number of steps may stay below four for each token.
-/
def slack : Phrase → Nat
  | .primary _ | .bracketed _ => 3
  | .alternatives _ => 2
  | .union _ => 1
  | .params _ => 0

/--
Whether the reader gets from `cs` to `rest` with the tree of the phrase. The brackets of a bracketed
type are left to the loop that reads them.
-/
def ReadBy (fuel : Nat) (cs rest : List Char) : Phrase → Prop
  | .union e => union? fuel cs = .ok (e, rest)
  | .alternatives es => alternatives? fuel cs = .ok (es, rest)
  | .bracketed e => ∃ e₀ mid pairs, primary? fuel cs = .ok (e₀, mid) ∧
      pairs + rest.length ≤ mid.length ∧ ∀ n, brackets (pairs + n) e₀ mid = brackets n e rest
  | .primary e => primary? fuel cs = .ok (e, rest)
  | .params es => params? fuel cs = .ok (es, rest)

end Phrase

/--
Whether none of the tokens stands at the front of the text.
-/
def Free (ts : List Token) (cs : List Char) : Prop :=
  ∀ t ∈ ts, eat? t.chars cs = none

theorem Token.Stands.free {t : Token} {cs rest : List Char} (h : t.Stands cs rest)
    {ts : List Token} (hts : ∀ u ∈ ts, u.isSymbol = true ∧ t ≠ u)
    : Free ts cs :=
  fun u hu => h.eat?_eq_none (hts u hu).1 (hts u hu).2

theorem Free.mono {ts us : List Token} {cs : List Char} (h : Free ts cs) (hsub : ∀ t ∈ us, t ∈ ts)
    : Free us cs :=
  fun t ht => h t (hsub t ht)

theorem brackets_of_stands {cs rest : List Char} (h : Token.brackets.Stands cs rest) (n : Nat)
    (e : TypeExpr)
    : brackets (n + 1) e cs = brackets n (.array e) rest := by
  have hbrackets : eat? ['[', ']'] cs = some rest := (Token.eat?_eq_some_iff rfl).2 h
  rw [brackets, hbrackets]

theorem ofAlternatives_of_two_le {es : List TypeExpr} (h : 2 ≤ es.length)
    : ofAlternatives es = .union es := by
  unfold ofAlternatives
  split
  . simp at h
  . rfl

theorem brackets_of_free {cs : List Char} (h : eat? Token.brackets.chars cs = none) (n : Nat)
    (e : TypeExpr)
    : brackets n e cs = (e, cs) := by
  cases n with
  | zero => rfl
  | succ n =>
    have hbrackets : eat? ['[', ']'] cs = none := h
    rw [brackets, hbrackets]

theorem Derives.length_pos {p : Phrase} {ts : List Token} (h : Derives p ts) : 0 < ts.length := by
  induction h with
  | named | array | generic | grouped => simp
  | alternative | param =>
    simp only [List.length_append, List.length_cons]
    omega
  | single _ ih | several _ _ ih | lastAlternative _ ih | bare _ ih | lastParam _ ih => exact ih

theorem Matches.blank {p : Phrase} {b : Char} {cs rest : List Char} (h : Matches p cs rest)
    (hb : Text.isBlank b = true)
    : Matches p (b :: cs) rest := by
  rcases h with ⟨ts, hts, hp⟩
  cases hts with
  | nil => exact absurd hp.length_pos (by simp)
  | cons ht hts =>
    rcases ht with ⟨blanks, hblanks, rfl, hends⟩
    refine ⟨_, .cons ⟨b :: blanks, ?_, rfl, hends⟩ hts, hp⟩
    simpa using ⟨hb, hblanks⟩

section Complete

variable {fuel : Nat} {cs a b c rest : List Char} {e : TypeExpr} {es : List TypeExpr} {n : String}

theorem Phrase.ReadBy.brackets_eq (h : (Phrase.bracketed e).ReadBy fuel cs rest)
    (hfree : eat? Token.brackets.chars rest = none)
    : ∃ e₀ mid, primary? fuel cs = .ok (e₀, mid) ∧ brackets mid.length e₀ mid = (e, rest) := by
  rcases h with ⟨e₀, mid, pairs, hprimary, hlength, hbrackets⟩
  refine ⟨e₀, mid, hprimary, ?_⟩
  have hsplit : mid.length = pairs + (mid.length - pairs) := by omega
  rw [hsplit, hbrackets, brackets_of_free hfree]

theorem union?_eq_ok (h : alternatives? fuel cs = .ok (es, rest))
    : union? (fuel + 1) cs = .ok (ofAlternatives es, rest) :=
  bind_eq_ok_iff.2 ⟨_, h, rfl⟩

theorem alternatives?_last (h : (Phrase.bracketed e).ReadBy fuel cs rest)
    (hfree : Free [.brackets, .bar] rest)
    : alternatives? (fuel + 1) cs = .ok ([e], rest) := by
  rcases h.brackets_eq (hfree .brackets (by simp)) with ⟨e₀, mid, hprimary, heq⟩
  have hbar : eat? ['|'] rest = none := hfree .bar (by simp)
  apply bind_eq_ok_iff.2
  refine ⟨_, hprimary, ?_⟩
  simp only [heq, hbar]
  rfl

theorem alternatives?_cons (h : (Phrase.bracketed e).ReadBy fuel cs a)
    (hstands : Token.bar.Stands a b) (hes : alternatives? fuel b = .ok (es, rest))
    : alternatives? (fuel + 1) cs = .ok (e :: es, rest) := by
  have hbrackets := hstands.eat?_eq_none (u := .brackets) rfl nofun
  rcases h.brackets_eq hbrackets with ⟨e₀, mid, hprimary, heq⟩
  have hbar : eat? ['|'] a = some b := (Token.eat?_eq_some_iff rfl).2 hstands
  apply bind_eq_ok_iff.2
  refine ⟨_, hprimary, ?_⟩
  simp only [heq, hbar]
  exact bind_eq_ok_iff.2 ⟨_, hes, rfl⟩

theorem primary?_named (hname : (Token.name n).Stands cs rest)
    (hfree : eat? Token.less.chars rest = none)
    : primary? (fuel + 1) cs = .ok (.named n, rest) := by
  have hopening : eat? ['('] cs = none := hname.eat?_eq_none (u := .opening) rfl nofun
  have hless : eat? ['<'] rest = none := hfree
  rw [primary?, hopening]
  apply bind_eq_ok_iff.2
  refine ⟨_, Token.name?_eq_ok_iff.2 hname, ?_⟩
  simp only [hless]
  rfl

theorem primary?_generic (hname : (Token.name n).Stands cs a) (hless : Token.less.Stands a b)
    (hes : params? fuel b = .ok (es, c)) (hgreater : Token.greater.Stands c rest)
    : primary? (fuel + 1) cs = .ok (.generic n es, rest) := by
  have hopening : eat? ['('] cs = none := hname.eat?_eq_none (u := .opening) rfl nofun
  have hless : eat? ['<'] a = some b := (Token.eat?_eq_some_iff rfl).2 hless
  have hgreater : eat? ['>'] c = some rest := (Token.eat?_eq_some_iff rfl).2 hgreater
  rw [primary?, hopening]
  apply bind_eq_ok_iff.2
  refine ⟨_, Token.name?_eq_ok_iff.2 hname, ?_⟩
  simp only [hless]
  apply bind_eq_ok_iff.2
  refine ⟨_, hes, ?_⟩
  simp only [hgreater]
  rfl

theorem primary?_grouped (hopening : Token.opening.Stands cs a)
    (he : union? fuel a = .ok (e, b)) (hclosing : Token.closing.Stands b rest)
    : primary? (fuel + 1) cs = .ok (e, rest) := by
  have hopening : eat? ['('] cs = some a := (Token.eat?_eq_some_iff rfl).2 hopening
  have hclosing : eat? [')'] b = some rest := (Token.eat?_eq_some_iff rfl).2 hclosing
  rw [primary?, hopening]
  apply bind_eq_ok_iff.2
  refine ⟨_, he, ?_⟩
  simp only [hclosing]
  rfl

theorem params?_last (he : union? fuel cs = .ok (e, rest))
    (hfree : eat? Token.comma.chars rest = none)
    : params? (fuel + 1) cs = .ok ([e], rest) := by
  have hcomma : eat? [','] rest = none := hfree
  apply bind_eq_ok_iff.2
  refine ⟨_, he, ?_⟩
  simp only [hcomma]
  rfl

theorem params?_cons (he : union? fuel cs = .ok (e, a)) (hstands : Token.comma.Stands a b)
    (hes : params? fuel b = .ok (es, rest))
    : params? (fuel + 1) cs = .ok (e :: es, rest) := by
  have hcomma : eat? [','] a = some b := (Token.eat?_eq_some_iff rfl).2 hstands
  apply bind_eq_ok_iff.2
  refine ⟨_, he, ?_⟩
  simp only [hcomma]
  exact bind_eq_ok_iff.2 ⟨_, hes, rfl⟩

end Complete

theorem Derives.exists_succ {p : Phrase} {ts : List Token} (h : Derives p ts) {fuel : Nat}
    (hfuel : 4 * ts.length ≤ fuel + p.slack)
    : ∃ k, fuel = k + 1 := by
  have hpos := h.length_pos
  have hslack : p.slack ≤ 3 := by cases p <;> simp [Phrase.slack]
  exact ⟨fuel - 1, by omega⟩

/--
The reader follows every derivation, if it may take enough steps and no token behind the phrase can
be mistaken for a part of it.
-/
theorem Derives.readBy {p : Phrase} {ts : List Token} (h : Derives p ts)
    : ∀ {fuel cs rest}, Spells cs ts rest → Free p.stops rest → 4 * ts.length ≤ fuel + p.slack →
        p.ReadBy fuel cs rest := by
  induction h with
  | single h ih =>
    intro fuel cs rest hts hfree hfuel
    rcases (Derives.single h).exists_succ hfuel with ⟨fuel, rfl⟩
    exact union?_eq_ok (ih hts hfree hfuel)
  | several h hlength ih =>
    intro fuel cs rest hts hfree hfuel
    rcases (Derives.several h hlength).exists_succ hfuel with ⟨fuel, rfl⟩
    rw [← ofAlternatives_of_two_le hlength]
    exact union?_eq_ok (ih hts hfree hfuel)
  | lastAlternative h ih =>
    intro fuel cs rest hts hfree hfuel
    rcases (Derives.lastAlternative h).exists_succ hfuel with ⟨fuel, rfl⟩
    apply alternatives?_last
    . exact ih hts (hfree.mono (by simp [Phrase.stops])) hfuel
    . exact hfree.mono (by simp [Phrase.stops])
  | alternative h hs ih ihs =>
    intro fuel cs rest hts hfree hfuel
    rcases (Derives.alternative h hs).exists_succ hfuel with ⟨fuel, rfl⟩
    rcases hts.of_append_cons with ⟨a, b, hts, hbar, hus⟩
    simp only [List.length_append, List.length_cons, Phrase.slack] at hfuel ih ihs
    apply alternatives?_cons _ hbar
    . exact ihs hus hfree (by omega)
    . exact ih hts (hbar.free (by simp [Phrase.stops, Token.isSymbol])) (by omega)
  | bare _ ih =>
    intro fuel cs rest hts hfree hfuel
    exact ⟨_, rest, 0, ih hts hfree hfuel, by omega, by simp⟩
  | @array e ts h ih =>
    intro fuel cs rest hts hfree hfuel
    rcases hts.of_concat with ⟨a, hts, hbrackets⟩
    simp only [List.length_append, List.length_cons, Phrase.slack] at hfuel ih
    have hfront : (Phrase.bracketed e).ReadBy fuel cs a :=
      ih hts (hbrackets.free (by simp [Phrase.stops, Token.isSymbol])) (by omega)
    rcases hfront with ⟨e₀, mid, pairs, hprimary, hlength, heq⟩
    have hlt := hbrackets.length_lt
    refine ⟨e₀, mid, pairs + 1, hprimary, by omega, ?_⟩
    intro n
    rw [Nat.add_assoc, heq, Nat.add_comm 1 n, brackets_of_stands hbrackets]
  | named =>
    intro fuel cs rest hts hfree hfuel
    rcases Derives.named.exists_succ hfuel with ⟨fuel, rfl⟩
    rcases hts.of_cons with ⟨mid, hname, hnil⟩
    cases hnil
    exact primary?_named hname (hfree .less (by simp [Phrase.stops]))
  | generic h ih =>
    intro fuel cs rest hts hfree hfuel
    rcases (Derives.generic h).exists_succ hfuel with ⟨fuel, rfl⟩
    rcases hts.of_cons with ⟨a, hname, hts⟩
    rcases hts.of_cons with ⟨b, hless, hts⟩
    rcases hts.of_concat with ⟨c, hts, hgreater⟩
    simp only [List.length_append, List.length_cons, Phrase.slack] at hfuel ih
    apply primary?_generic hname hless _ hgreater
    exact ih hts (hgreater.free (by simp [Phrase.stops, Token.isSymbol])) (by omega)
  | grouped h ih =>
    intro fuel cs rest hts hfree hfuel
    rcases (Derives.grouped h).exists_succ hfuel with ⟨fuel, rfl⟩
    rcases hts.of_cons with ⟨a, hopening, hts⟩
    rcases hts.of_concat with ⟨b, hts, hclosing⟩
    simp only [List.length_append, List.length_cons, Phrase.slack] at hfuel ih
    apply primary?_grouped hopening _ hclosing
    exact ih hts (hclosing.free (by simp [Phrase.stops, Token.isSymbol])) (by omega)
  | lastParam h ih =>
    intro fuel cs rest hts hfree hfuel
    rcases (Derives.lastParam h).exists_succ hfuel with ⟨fuel, rfl⟩
    apply params?_last
    . exact ih hts (hfree.mono (by simp [Phrase.stops])) hfuel
    . exact hfree .comma (by simp [Phrase.stops])
  | param h hs ih ihs =>
    intro fuel cs rest hts hfree hfuel
    rcases (Derives.param h hs).exists_succ hfuel with ⟨fuel, rfl⟩
    rcases hts.of_append_cons with ⟨a, b, hts, hcomma, hus⟩
    simp only [List.length_append, List.length_cons, Phrase.slack] at hfuel ih ihs
    apply params?_cons _ hcomma
    . exact ihs hus hfree (by omega)
    . exact ih hts (hcomma.free (by simp [Phrase.stops, Token.isSymbol])) (by omega)

theorem free_of_skipBlank_eq_nil {cs : List Char} (h : Text.skipBlank cs = []) {ts : List Token}
    (hts : ∀ t ∈ ts, t.isSymbol = true)
    : Free ts cs := by
  intro t ht
  rw [Option.eq_none_iff_forall_ne_some]
  intro rest heat
  have hstands := stands_of_eat? t heat (hts t ht)
  rcases Token.head_chars (Token.stands_iff.1 hstands).2 with ⟨c, more, hchars, _⟩
  have hskip := hstands.skipBlank_eq
  rw [h, hchars] at hskip
  cases hskip

theorem parse_of_matches {text : String} {e : TypeExpr} {rest : List Char}
    (h : Matches (.union e) text.toList rest) (hrest : ∀ c ∈ rest, Text.isBlank c = true)
    : parse text = .ok e := by
  rcases h with ⟨ts, hts, he⟩
  have hblank := Text.skipBlank_eq_nil_iff.2 hrest
  have hlength := hts.length_le
  have hfree : Free (Phrase.union e).stops rest :=
    free_of_skipBlank_eq_nil hblank (by simp [Phrase.stops, Token.isSymbol])
  have hunion : union? (4 * text.toList.length + 4) text.toList = .ok (e, rest) :=
    he.readBy hts hfree (by omega)
  apply bind_eq_ok_iff.2
  refine ⟨_, hunion, ?_⟩
  simp only [hblank]
  rfl

/--
A text is read as a type exactly if it is a sequence of tokens that the grammar derives, with white
space before each token and at the end.
-/
theorem parse_eq_ok_iff (text : String) (e : TypeExpr)
    : parse text = .ok e ↔
        ∃ ts rest, Spells text.toList ts rest ∧ (∀ c ∈ rest, Text.isBlank c = true) ∧
          Derives (.union e) ts := by
  constructor
  . intro h
    rcases bind_eq_ok_iff.1 h with ⟨⟨e, rest⟩, hunion, hend⟩
    rcases (sound _).union hunion with ⟨ts, hts, he⟩
    dsimp only at hend
    split at hend
    . next hblank =>
      cases hend
      exact ⟨ts, rest, hts, Text.skipBlank_eq_nil_iff.1 hblank, he⟩
    . cases hend
  . rintro ⟨ts, rest, hts, hrest, he⟩
    exact parse_of_matches ⟨ts, hts, he⟩ hrest

end TypeExpr

end LuaClasses
