import LuaClasses.Proofs.Persistence

/-!
This module contains what the reader of numbers makes of any bytes: which of them are a number, and
what is wrong with the others. The number is exact. A reader that shifts the groups into a word of
32 bits gets the same, so no shift moves a bit out of the word.
-/

namespace LuaClasses

namespace Stub

/--
The number that bytes denote in groups of seven bits, the least significant group first.
-/
def groupsValue : List UInt8 → Nat
  | [] => 0
  | b :: rest => b.toNat % 128 + 128 * groupsValue rest

/--
The bytes are the number `n`: the high bit says of each but the last that another group follows,
there are at most five of them, and what they denote fits into 32 bits.
-/
structure Numeral (bytes : List UInt8) (n : Nat) : Prop where
  length_le : bytes.length ≤ 5
  ended : ∃ init last, bytes = init ++ [last] ∧ (∀ b ∈ init, 128 ≤ b.toNat) ∧ last.toNat < 128
  value_eq : groupsValue bytes = n
  lt : n < UInt32.size

/--
The bytes end before a number is complete.
-/
def Unfinished (bytes : List UInt8) : Prop :=
  bytes.length < 5 ∧ ∀ b ∈ bytes, 128 ≤ b.toNat

theorem groupsValue_lt (bytes : List UInt8) : groupsValue bytes < Nat.pow 128 bytes.length := by
  induction bytes with
  | nil => exact Nat.one_pos
  | cons b rest ih =>
    have hpow : Nat.pow 128 (rest.length + 1) = Nat.pow 128 rest.length * 128 := rfl
    rw [groupsValue, List.length_cons]
    omega

theorem groupsValue_concat (init : List UInt8) (last : UInt8)
    : groupsValue (init ++ [last])
        =
      groupsValue init + last.toNat % 128 * Nat.pow 128 init.length := by
  induction init with
  | nil =>
    have hone : Nat.pow 128 ([] : List UInt8).length = 1 := rfl
    simp only [List.nil_append, groupsValue, hone]
    omega
  | cons b rest ih =>
    have hpow : Nat.pow 128 (rest.length + 1) = Nat.pow 128 rest.length * 128 := rfl
    rw [List.cons_append, groupsValue, groupsValue, ih, List.length_cons, hpow, ← Nat.mul_assoc,
      Nat.mul_add]
    omega

namespace Reader

section Groups

variable (start place value left offset : Nat)

theorem groups_run_nil
    : (groups start place value (left + 1)).run.run { offset, rest := [] }
        =
      (.error (.unexpectedEnd offset), { offset, rest := [] }) :=
  rfl

theorem groups_run_cons (b : UInt8) (rest : List UInt8)
    : (groups start place value (left + 1)).run.run { offset, rest := b :: rest }
        =
      (if left = 0 ∧ 16 ≤ b.toNat % 128 then throw (.overflow start)
        else if b.toNat < 128 then return value + b.toNat % 128 * place
        else groups start (128 * place) (value + b.toNat % 128 * place) left : Reader Nat).run.run
          { offset := offset + 1, rest } :=
  rfl

-- What does not fit is noticed at the last allowed group only, and that one is not among `init`.
theorem groups_run_append {init : List UInt8} (h : ∀ b ∈ init, 128 ≤ b.toNat) (rest : List UInt8)
    : (groups start place value (init.length + (left + 1))).run.run { offset, rest := init ++ rest }
        =
      (groups start (Nat.pow 128 init.length * place) (value + groupsValue init * place)
        (left + 1)).run.run { offset := offset + init.length, rest } := by
  induction init generalizing place value offset with
  | nil =>
    rw [groupsValue, Nat.zero_mul]
    have hone : Nat.pow 128 ([] : List UInt8).length * place = place := Nat.one_mul place
    rw [hone, List.length_nil, Nat.zero_add]
    rfl
  | cons b init ih =>
    have hb := h b List.mem_cons_self
    have hpow : Nat.pow 128 (init.length + 1) = Nat.pow 128 init.length * 128 := rfl
    have hgroups : (b :: init).length + (left + 1) = init.length + (left + 1) + 1 := by
      rw [List.length_cons]
      omega
    have hvalue : value + groupsValue (b :: init) * place
        = value + b.toNat % 128 * place + groupsValue init * (128 * place) := by
      rw [groupsValue, Nat.add_mul, ← Nat.mul_assoc, Nat.mul_comm 128, Nat.add_assoc]
    rw [hgroups, List.cons_append, groups_run_cons, if_neg (by omega), if_neg (by omega),
      ih _ _ _ fun b' hb' => h b' (List.mem_cons_of_mem b hb'), hvalue, List.length_cons, hpow,
      Nat.mul_assoc, Nat.add_assoc offset, Nat.add_comm 1]

end Groups

theorem run_get_bind (f : Cursor → Reader α) (c : Cursor)
    : (MonadState.get >>= f).run.run c = (f c).run.run c :=
  rfl

theorem varint_run (c : Cursor) : varint.run.run c = (groups c.offset 1 0 5).run.run c := by
  unfold varint
  rw [run_get_bind]

theorem varint_run_append {init : List UInt8} (h : ∀ b ∈ init, 128 ≤ b.toNat)
    (hlength : init.length ≤ 4) (offset : Nat) (rest : List UInt8)
    : varint.run.run { offset, rest := init ++ rest }
        =
      (groups offset (Nat.pow 128 init.length) (groupsValue init) (4 - init.length + 1)).run.run
        { offset := offset + init.length, rest } := by
  have hfive : 5 = init.length + (4 - init.length + 1) := by omega
  rw [varint_run, hfive, groups_run_append _ _ _ _ _ h, Nat.mul_one, Nat.mul_one, Nat.zero_add]

end Reader

/--
The bytes go on, or do not fit, where only four bits are left for the fifth group.
-/
def Overlong (bytes : List UInt8) : Prop :=
  ∃ init b suffix, bytes = init ++ b :: suffix ∧ (∀ b ∈ init, 128 ≤ b.toNat) ∧ init.length = 4 ∧
    (16 ≤ b.toNat % 128 ∨ 128 ≤ b.toNat)

theorem groupsValue_lt_size_iff {init : List UInt8} (hlength : init.length ≤ 4) (last : UInt8)
    : groupsValue (init ++ [last]) < UInt32.size ↔
        ¬(4 - init.length = 0 ∧ 16 ≤ last.toNat % 128) := by
  have hsize : UInt32.size = 16 * Nat.pow 128 4 := rfl
  rcases Nat.eq_or_lt_of_le hlength with hfour | hless
  . have hinit := groupsValue_lt init
    have hpow : Nat.pow 128 4 = 268435456 := rfl
    rw [hfour, hpow] at hinit
    rw [groupsValue_concat, hsize, hfour, hpow]
    omega
  . have hvalue := groupsValue_lt (init ++ [last])
    have hpow : Nat.pow 128 (init ++ [last]).length ≤ Nat.pow 128 4 := by
      apply Nat.pow_le_pow_right (by omega)
      rw [List.length_append, List.length_singleton]
      omega
    omega

theorem Numeral.reads {bytes : List UInt8} {n : Nat} (h : Numeral bytes n)
    : Reads Reader.varint bytes n := by
  rcases h with ⟨hlength, ⟨init, last, rfl, hinit, hlast⟩, rfl, hlt⟩
  rw [List.length_append, List.length_singleton] at hlength
  rw [groupsValue_lt_size_iff (by omega)] at hlt
  intro offset suffix
  rw [List.append_assoc, List.singleton_append, Reader.varint_run_append hinit (by omega),
    Reader.groups_run_cons, if_neg hlt, if_pos hlast, groupsValue_concat, List.length_append,
    List.length_singleton, Nat.add_assoc]
  rfl

theorem Unfinished.starves {bytes : List UInt8} (h : Unfinished bytes) (offset : Nat)
    : (Reader.varint.run.run { offset, rest := bytes }).1
        =
      .error (.unexpectedEnd (offset + bytes.length)) := by
  rcases h with ⟨hlength, hbytes⟩
  have hrun := Reader.varint_run_append hbytes (by omega) offset []
  rw [List.append_nil, Reader.groups_run_nil] at hrun
  rw [hrun]

theorem Overlong.overflows {bytes : List UInt8} (h : Overlong bytes) (offset : Nat)
    : (Reader.varint.run.run { offset, rest := bytes }).1 = .error (.overflow offset) := by
  rcases h with ⟨init, b, suffix, rfl, hinit, hlength, hb⟩
  rw [Reader.varint_run_append hinit (by omega), hlength, Reader.groups_run_cons]
  split
  . rfl
  . rw [if_neg (by omega)]
    rfl

/--
Bytes begin with groups that have another one behind them, until they end, or a group is the last
one, or there are as many as allowed.
-/
theorem exists_init (most : Nat) (bytes : List UInt8)
    : ∃ init rest, bytes = init ++ rest ∧ (∀ b ∈ init, 128 ≤ b.toNat) ∧ init.length ≤ most ∧
        (rest = [] ∨ ∃ b suffix, rest = b :: suffix ∧ (b.toNat < 128 ∨ init.length = most)) := by
  induction most generalizing bytes with
  | zero =>
    refine ⟨[], bytes, rfl, nofun, Nat.le_refl 0, ?_⟩
    cases bytes with
    | nil => exact .inl rfl
    | cons b suffix => exact .inr ⟨b, suffix, rfl, .inr rfl⟩
  | succ most ih =>
    cases bytes with
    | nil => exact ⟨[], [], rfl, nofun, Nat.zero_le _, .inl rfl⟩
    | cons b bytes =>
      by_cases hb : b.toNat < 128
      . exact ⟨[], b :: bytes, rfl, nofun, Nat.zero_le _, .inr ⟨b, bytes, rfl, .inl hb⟩⟩
      . rcases ih bytes with ⟨init, rest, rfl, hinit, hlength, hrest⟩
        refine ⟨b :: init, rest, rfl, ?_, Nat.succ_le_succ hlength, ?_⟩
        . simpa [Nat.not_lt.1 hb] using hinit
        . simpa using hrest

theorem numeral_or_unfinished_or_overlong (bytes : List UInt8)
    : (∃ front n, front <+: bytes ∧ Numeral front n) ∨ Unfinished bytes ∨ Overlong bytes := by
  rcases exists_init 4 bytes with ⟨init, rest, rfl, hinit, hlength, rfl | ⟨b, suffix, rfl, hb⟩⟩
  . rw [List.append_nil]
    exact .inr (.inl ⟨Nat.lt_succ_of_le hlength, hinit⟩)
  . by_cases hnumeral : b.toNat < 128 ∧ groupsValue (init ++ [b]) < UInt32.size
    . refine .inl ⟨init ++ [b], _, ⟨suffix, by simp⟩, ?_, ⟨init, b, rfl, hinit, hnumeral.1⟩, rfl,
        hnumeral.2⟩
      rw [List.length_append]
      exact Nat.succ_le_succ hlength
    . rw [groupsValue_lt_size_iff hlength] at hnumeral
      exact .inr (.inr ⟨init, b, suffix, rfl, hinit, by omega, by omega⟩)

namespace Reader

/--
Read the groups of a number into a word of 32 bits, each of them shifted to its place. A bit that is
shifted out of the word is lost.
-/
def wordGroups (start : Nat) (shift word : UInt32) : Nat → Reader UInt32
  | 0 => throw (.overflow start)
  | left + 1 => do
    let b ← byte
    let low := (b &&& 0x7f).toUInt32
    if shift = 28 ∧ 0x0f < low then
      throw (.overflow start)
    else
      let word := word ||| low <<< shift
      if b &&& 0x80 = 0 then return word else wordGroups start (shift + 7) word left

def wordVarint : Reader UInt32 := do
  let c ← get
  wordGroups c.offset 0 0 5

theorem low_toNat (b : UInt8) : (b &&& 0x7f).toUInt32.toNat = b.toNat % 128 := by
  rw [UInt8.toNat_toUInt32, UInt8.toNat_and]
  exact Nat.and_two_pow_sub_one_eq_mod b.toNat 7

theorem high_eq_zero_iff (b : UInt8) : b &&& 0x80 = 0 ↔ b.toNat < 128 := by
  have hall : ∀ n : Fin 256, n.val &&& 128 = 0 ↔ n.val < 128 := by decide +kernel
  rw [← UInt8.toNat_inj, UInt8.toNat_and]
  exact hall ⟨b.toNat, b.toNat_lt⟩

theorem join_toNat {word low shift : UInt32} (hshift : shift.toNat < 32)
    (hword : word.toNat < Nat.pow 2 shift.toNat)
    (hlow : low.toNat * Nat.pow 2 shift.toNat < UInt32.size)
    : (word ||| low <<< shift).toNat = word.toNat + low.toNat * Nat.pow 2 shift.toNat := by
  have hplace : low.toNat <<< shift.toNat = low.toNat * Nat.pow 2 shift.toNat :=
    Nat.shiftLeft_eq _ _
  have hor := Nat.two_pow_add_eq_or_of_lt hword low.toNat
  rw [UInt32.toNat_or, UInt32.toNat_shiftLeft, Nat.mod_eq_of_lt hshift, hplace,
    Nat.mod_eq_of_lt hlow, Nat.or_comm, Nat.mul_comm]
  exact hor.symm.trans (Nat.add_comm _ _)

theorem group_fits {low shift left : Nat} (hshift : shift + 7 * (left + 1) = 35) (hlow : low < 128)
    (hlast : ¬(left = 0 ∧ 16 ≤ low))
    : low * Nat.pow 2 shift < UInt32.size := by
  have hsize : UInt32.size = 4294967296 := rfl
  have hpow : Nat.pow 2 28 = 268435456 := rfl
  by_cases hleft : left = 0
  . have hplace : shift = 28 := by omega
    rw [hplace, hpow]
    omega
  . have hplace : Nat.pow 2 (shift + 7) ≤ Nat.pow 2 28 := Nat.pow_le_pow_right (by omega) (by omega)
    have hgroup : low * Nat.pow 2 shift ≤ 128 * Nat.pow 2 shift :=
      Nat.mul_le_mul_right _ (Nat.le_of_lt hlow)
    have hnext : Nat.pow 2 (shift + 7) = Nat.pow 2 shift * 128 := Nat.pow_add 2 shift 7
    omega

theorem map_wordGroups (start : Nat) {shift word : UInt32} {left : Nat}
    (hshift : shift.toNat + 7 * left = 35) (hword : word.toNat < Nat.pow 2 shift.toNat)
    : UInt32.toNat <$> wordGroups start shift word left
        =
      groups start (Nat.pow 2 shift.toNat) word.toNat left := by
  induction left generalizing shift word with
  | zero => rfl
  | succ left ih =>
    unfold wordGroups groups
    rw [map_bind]
    apply bind_congr
    intro b
    dsimp only
    have hlow := low_toNat b
    generalize (b &&& 0x7f).toUInt32 = low at hlow
    have hfifth : (shift = 28 ∧ 0x0f < low) ↔ (left = 0 ∧ 16 ≤ low.toNat) := by
      rw [← UInt32.toNat_inj, UInt32.lt_iff_toNat_lt]
      have h28 : (28 : UInt32).toNat = 28 := rfl
      have h15 : (15 : UInt32).toNat = 15 := rfl
      omega
    rw [← hlow]
    by_cases hover : left = 0 ∧ 16 ≤ low.toNat
    . rw [if_pos hover, if_pos (hfifth.2 hover)]
      rfl
    . have hfits := group_fits hshift (by omega) hover
      have hjoin := join_toNat (by omega) hword hfits
      rw [if_neg hover, if_neg fun h => hover (hfifth.1 h)]
      by_cases hb : b.toNat < 128
      . rw [if_pos hb, if_pos ((high_eq_zero_iff b).2 hb), ← hjoin]
        rfl
      . have hseven : (shift + 7).toNat = shift.toNat + 7 := by
          have h7 : (7 : UInt32).toNat = 7 := rfl
          rw [UInt32.toNat_add, h7]
          omega
        have hplace : Nat.pow 2 (shift + 7).toNat = 128 * Nat.pow 2 shift.toNat := by
          rw [hseven, Nat.mul_comm]
          exact Nat.pow_add 2 shift.toNat 7
        have hgroup : low.toNat * Nat.pow 2 shift.toNat ≤ 127 * Nat.pow 2 shift.toNat :=
          Nat.mul_le_mul_right _ (by omega)
        rw [if_neg hb, if_neg fun h => hb ((high_eq_zero_iff b).1 h), ih, hjoin, hplace]
        . omega
        . rw [hjoin, hplace]
          omega

theorem map_wordVarint : UInt32.toNat <$> wordVarint = varint := by
  unfold wordVarint varint
  rw [map_bind]
  apply bind_congr
  intro c
  exact map_wordGroups c.offset rfl Nat.one_pos

end Reader

/--
Whatever bytes stand at a place, a number is read from there exactly if they begin with one, and the
place moves behind it. Otherwise the data ends before a number is complete, or the number is too
long; the one is reported with the length of the data, the other with the place. The same is read
into a word of 32 bits.
-/
theorem varint_exact (c : Cursor)
    : (∀ n c', Reader.varint.run.run c = (.ok n, c') ↔
        ∃ bytes, bytes <+: c.rest ∧ Numeral bytes n ∧ c' = c.advance bytes.length) ∧
      (Unfinished c.rest → (Reader.varint.run.run c).1 = .error (.unexpectedEnd c.length)) ∧
      ((∀ bytes n, bytes <+: c.rest → ¬Numeral bytes n) → ¬Unfinished c.rest →
        (Reader.varint.run.run c).1 = .error (.overflow c.offset)) ∧
      UInt32.toNat <$> Reader.wordVarint = Reader.varint := by
  rcases c with ⟨offset, rest⟩
  refine ⟨?_, fun h => h.starves offset, ?_, Reader.map_wordVarint⟩
  . intro n c'
    constructor
    . intro hrun
      rcases numeral_or_unfinished_or_overlong rest with ⟨bytes, m, ⟨suffix, rfl⟩, h⟩ | h | h
      . rw [h.reads offset suffix] at hrun
        cases hrun
        exact ⟨bytes, List.prefix_append bytes suffix, h, by simp [Cursor.advance]⟩
      . have herror := h.starves offset
        rw [hrun] at herror
        cases herror
      . have herror := h.overflows offset
        rw [hrun] at herror
        cases herror
    . rintro ⟨bytes, ⟨suffix, rfl⟩, hnumeral, rfl⟩
      rw [hnumeral.reads offset suffix]
      simp [Cursor.advance]
  . intro hnumeral hunfinished
    rcases numeral_or_unfinished_or_overlong rest with ⟨bytes, n, hprefix, h⟩ | h | h
    . exact absurd h (hnumeral bytes n hprefix)
    . exact absurd h hunfinished
    . exact h.overflows offset

-- A number may end with groups of zeros, and the largest number of 32 bits is the last that fits.
example
    : Reader.varint.run.run ⟨3, [0x85, 0x80, 0x00, 0x01]⟩ = (.ok 5, ⟨6, [0x01]⟩) ∧
      (Reader.varint.run.run ⟨3, [0xff, 0xff, 0xff, 0xff, 0x0f]⟩).1 = .ok 0xffffffff ∧
      (Reader.varint.run.run ⟨3, [0xff, 0xff, 0xff, 0xff, 0x10]⟩).1 = .error (.overflow 3) :=
  ⟨rfl, rfl, rfl⟩

end Stub

end LuaClasses
