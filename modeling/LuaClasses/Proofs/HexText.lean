import LuaClasses.Proofs.RoundTrip

/-!
This module contains what the reader of hexadecimal text accepts: pairs of digits in either case,
and in the place of the first digit of a pair also a plus sign, which counts as a zero. The bytes
are written as the text in lower case, unless there is a plus sign in it.
-/

namespace LuaClasses

namespace Text

/--
The digit that is written where a character was read.
-/
def plainDigit (c : Char) : Char :=
  if c = '+' then '0' else c.toLower

theorem map_plainDigit_eq_iff (cs : List Char)
    : cs.map plainDigit = lowerCase cs ↔ '+' ∉ cs := by
  have hplus : '+'.toLower = '+' := by decide
  unfold lowerCase
  rw [List.map_inj_left]
  constructor
  . intro h hmem
    have heq := h '+' hmem
    rw [plainDigit, if_pos rfl, hplus] at heq
    exact absurd heq (by decide)
  . intro h c hc
    rw [plainDigit, if_neg (ne_of_mem_of_not_mem hc h)]

theorem toNat_lt_of_hexDigit? {c : Char} {n : Nat} (h : hexDigit? c = some n) : c.toNat < 128 := by
  have hle : ∀ {d : Char}, c ≤ d → d.toNat < 128 → c.toNat < 128 :=
    fun hcd hd => Nat.lt_of_le_of_lt hcd hd
  unfold hexDigit? at h
  simp only [Char.isDigit, Bool.and_eq_true, decide_eq_true_eq] at h
  split at h
  . next hdigit => exact hle (d := '9') hdigit.2 (by decide)
  . split at h
    . next hlower => exact hle hlower.2 (by decide)
    . split at h
      . next hupper => exact hle hupper.2 (by decide)
      . cases h

theorem hexDigit?_eq_some {c : Char} {n : Nat} (h : hexDigit? c = some n)
    : n < 16 ∧ Nat.digitChar n = plainDigit c ∧ c.utf8Size = 1 := by
  have hall : ∀ k : Fin 128, (hexDigit? (Char.ofNat k)).all (fun n =>
      n < 16 ∧ Nat.digitChar n = plainDigit (Char.ofNat k) ∧ (Char.ofNat k).utf8Size = 1)
        = true := by
    decide
  have hc := hall ⟨c.toNat, toNat_lt_of_hexDigit? h⟩
  dsimp only at hc
  rw [Char.ofNat_toNat, h] at hc
  exact of_decide_eq_true hc

end Text

namespace Hex

/--
Whether the characters of a pair are digits. The first one may also be a plus sign.
-/
def isPair (p : Char × Char) : Bool :=
  (p.1 == '+' || (Text.hexDigit? p.1).isSome) && (Text.hexDigit? p.2).isSome

/--
Whether a text consists of such pairs.
-/
def IsPaired (cs : List Char) : Prop :=
  ∃ pairs : List (Char × Char), cs = pairs.flatMap (fun p => [p.1, p.2]) ∧
    ∀ p ∈ pairs, isPair p = true

theorem hexByte_ofNat {high low : Nat} (hhigh : high < 16) (hlow : low < 16)
    : Text.hexByte (UInt8.ofNat (16 * high + low)) = [Nat.digitChar high, Nat.digitChar low] := by
  have hvalue : (UInt8.ofNat (16 * high + low)).toNat = 16 * high + low := by
    rw [UInt8.toNat_ofNat']
    omega
  unfold Text.hexByte
  rw [hvalue, show (16 * high + low) / 16 = high by omega,
    show (16 * high + low) % 16 = low by omega]

theorem pair?_eq_some {first second : Char} {b : UInt8} (h : pair? first second = some b)
    : Text.hexByte b = [Text.plainDigit first, Text.plainDigit second] ∧
      first.utf8Size = 1 ∧ second.utf8Size = 1 := by
  unfold pair? at h
  split at h
  . next high low hhigh hlow =>
    have hfirst : high < 16 ∧ Nat.digitChar high = Text.plainDigit first ∧ first.utf8Size = 1 := by
      split at hhigh
      . next hplus =>
        cases hhigh
        rw [eq_of_beq hplus]
        decide
      . exact Text.hexDigit?_eq_some hhigh
    have hsecond := Text.hexDigit?_eq_some hlow
    cases h
    rw [hexByte_ofNat hfirst.1 hsecond.1, hfirst.2.1, hsecond.2.1]
    exact ⟨rfl, hfirst.2.2, hsecond.2.2⟩
  . cases h

theorem isSome_pair? (first second : Char)
    : (pair? first second).isSome = isPair (first, second) := by
  unfold pair? isPair
  cases first == '+' <;> cases Text.hexDigit? first <;> cases Text.hexDigit? second <;> rfl

theorem exists_byte {p : Char × Char} (h : isPair p = true) : ∃ b, pair? p.1 p.2 = some b :=
  Option.isSome_iff_exists.1 ((isSome_pair? p.1 p.2).trans h)

theorem byteLength_of_isPaired {cs : List Char} (h : IsPaired cs) : Text.byteLength cs % 2 = 0 := by
  rcases h with ⟨pairs, rfl, hpairs⟩
  induction pairs with
  | nil => rfl
  | cons p rest ih =>
    have hrest := ih fun q hq => hpairs q (List.mem_cons_of_mem p hq)
    rcases exists_byte (hpairs p List.mem_cons_self) with ⟨b, hb⟩
    rcases pair?_eq_some hb with ⟨_, hfirst, hsecond⟩
    unfold Text.byteLength at hrest
    simp only [List.flatMap_cons, List.cons_append, List.nil_append, Text.byteLength,
      List.foldr_cons, hfirst, hsecond]
    omega

theorem decodePairs_of_isPaired {cs : List Char} (h : IsPaired cs) (offset : Nat)
    : ∃ bytes, decodePairs offset cs = .ok bytes ∧
      bytes.flatMap Text.hexByte = cs.map Text.plainDigit := by
  rcases h with ⟨pairs, rfl, hpairs⟩
  induction pairs generalizing offset with
  | nil => exact ⟨[], rfl, rfl⟩
  | cons p rest ih =>
    rcases ih (offset + 2) fun q hq => hpairs q (List.mem_cons_of_mem p hq) with
      ⟨bytes, hbytes, hdigits⟩
    rcases exists_byte (hpairs p List.mem_cons_self) with ⟨b, hb⟩
    rcases pair?_eq_some hb with ⟨hpair, hfirst, hsecond⟩
    refine ⟨b :: bytes, ?_, ?_⟩
    . simp only [List.flatMap_cons, List.cons_append, List.nil_append, decodePairs, hfirst, hsecond,
        hb, hbytes]
      rfl
    . rw [List.flatMap_cons, List.flatMap_cons, List.map_append, hpair, hdigits]
      rfl

theorem isPaired_of_decodePairs {offset : Nat} {cs : List Char} {bytes : List UInt8}
    (h : decodePairs offset cs = .ok bytes)
    : IsPaired cs := by
  fun_induction decodePairs offset cs generalizing bytes with
  | case1 => exact ⟨[], rfl, List.forall_mem_nil _⟩
  | case2 | case3 | case4 | case6 | case7 => cases h
  | case5 offset first second rest _ _ b hb ih =>
    cases hrest : decodePairs (offset + 2) rest with
    | error e =>
      rw [hrest] at h
      cases h
    | ok others =>
      rcases ih hrest with ⟨pairs, rfl, hpairs⟩
      refine ⟨(first, second) :: pairs, rfl, ?_⟩
      refine List.forall_mem_cons.2 ⟨?_, hpairs⟩
      rw [← isSome_pair?, hb]
      rfl

theorem isPaired_of_decode {text : String} {bytes : List UInt8} (h : decode text = .ok bytes)
    : IsPaired (Text.trim text.toList) := by
  unfold decode at h
  dsimp only at h
  split at h
  . cases h
  . exact isPaired_of_decodePairs h

theorem decode_of_isPaired {text : String} (h : IsPaired (Text.trim text.toList))
    : ∃ bytes, decode text = .ok bytes ∧
      encode bytes = String.ofList ((Text.trim text.toList).map Text.plainDigit) := by
  rcases decodePairs_of_isPaired h 0 with ⟨bytes, hbytes, hdigits⟩
  refine ⟨bytes, ?_, congrArg String.ofList hdigits⟩
  simp [decode, byteLength_of_isPaired h, hbytes]

end Hex

open Hex in
/--
A text is read as the bytes exactly if, without the white space around it, it consists of pairs of
digits where the first of a pair may be a plus sign, and the bytes are written as the text in lower
case with a zero for each plus sign. So the written form of what was read is the text in lower case
exactly if there is no plus sign in the text.
-/
theorem decode_eq_ok_iff_isPaired (text : String) (bytes : List UInt8)
    : let digits := Text.trim text.toList
      (decode text = .ok bytes
          ↔
        IsPaired digits ∧ encode bytes = String.ofList (digits.map Text.plainDigit)) ∧
      (decode text = .ok bytes →
        (encode bytes = String.ofList (Text.lowerCase digits) ↔ '+' ∉ digits)) := by
  intro digits
  have hwritten : decode text = .ok bytes →
      IsPaired digits ∧ encode bytes = String.ofList (digits.map Text.plainDigit) := by
    intro h
    have hpaired := isPaired_of_decode h
    rcases decode_of_isPaired hpaired with ⟨bytes', hbytes', hdigits⟩
    rw [h] at hbytes'
    cases hbytes'
    exact ⟨hpaired, hdigits⟩
  refine ⟨⟨hwritten, ?_⟩, ?_⟩
  . rintro ⟨hpaired, hdigits⟩
    rcases decode_of_isPaired hpaired with ⟨bytes', hbytes', hdigits'⟩
    -- Bytes that are written alike are the same, since the written form can be read.
    have hsame := congrArg decode (hdigits.trans hdigits'.symm)
    rw [decode_encode, decode_encode] at hsame
    rw [hbytes', hsame]
  . intro h
    rw [(hwritten h).2, String.ofList_inj]
    exact Text.map_plainDigit_eq_iff digits

theorem decode_eq_ok_iff_isPaired_blank
    : let digits := Text.trim " 1F+a\n".toList
      Hex.decode " 1F+a\n" = .ok [0x1f, 0x0a] ∧ Hex.IsPaired digits ∧
      Hex.encode [0x1f, 0x0a] = String.ofList (digits.map Text.plainDigit) ∧
      Hex.encode [0x1f, 0x0a] ≠ String.ofList (Text.lowerCase digits) ∧
      Hex.decode " 1F0a\n" = .ok [0x1f, 0x0a] ∧
      Hex.encode [0x1f, 0x0a] = String.ofList (Text.lowerCase (Text.trim " 1F0a\n".toList)) := by
  intro digits
  have hsigned : Hex.decode " 1F+a\n" = .ok [0x1f, 0x0a] := rfl
  have hplain : Hex.decode " 1F0a\n" = .ok [0x1f, 0x0a] := rfl
  rcases decode_eq_ok_iff_isPaired " 1F+a\n" [0x1f, 0x0a] with ⟨hread, hcase⟩
  have hcase' := (decode_eq_ok_iff_isPaired " 1F0a\n" [0x1f, 0x0a]).2 hplain
  refine ⟨hsigned, (hread.1 hsigned).1, (hread.1 hsigned).2, ?_, hplain, hcase'.2 (by decide +kernel)⟩
  rw [Ne, hcase hsigned]
  decide +kernel

theorem plus_sign_read_as_zero
    : Hex.decode "+f" = .ok [0x0f] ∧
      Hex.encode [0x0f] ≠ String.ofList (Text.lowerCase (Text.trim "+f".toList)) :=
  ⟨rfl, by decide +kernel⟩

end LuaClasses
