import LuaClasses.Proofs.RoundTrip

/-!
This module contains the proof that a stub that was cut off is noticed as such. Wherever the cut
falls, in a tag, a length, a character or the flags, the reader runs out of bytes before it can find
any other fault, and it reports the place of the cut.
-/

namespace LuaClasses

namespace Stub

/--
Given less than `bytes`, the reader reports that the data ends, and where.
-/
def Starves (r : Reader α) (bytes : List UInt8) : Prop :=
  ∀ offset k, k < bytes.length →
    (r.run.run { offset, rest := bytes.take k }).1 = .error (.unexpectedEnd (offset + k))

theorem Reader.run_bind_of_error {r : Reader α} {c : Cursor} {e : Error}
    (h : (r.run.run c).1 = .error e) (f : α → Reader β)
    : ((r >>= f).run.run c).1 = .error e := by
  rw [ExceptT.run_bind, StateT.run_bind]
  generalize r.run.run c = result at h
  rcases result with ⟨answer, c'⟩
  cases h
  rfl

theorem Reader.run_bind_of_ok {r : Reader α} {c c' : Cursor} {a : α}
    (h : r.run.run c = (.ok a, c')) (f : α → Reader β)
    : (r >>= f).run.run c = (f a).run.run c' := by
  rw [ExceptT.run_bind, StateT.run_bind, h]
  rfl

namespace Starves

theorem left {r : Reader α} {bytes : List UInt8} (h : Starves r bytes) (f : α → Reader β)
    : Starves (r >>= f) bytes := by
  intro offset k hk
  apply Reader.run_bind_of_error
  exact h offset k hk

theorem bind {r : Reader α} {f : α → Reader β} {bytes bytes' : List UInt8} {a : α}
    (hr : Starves r bytes) (hread : Reads r bytes a) (hf : Starves (f a) bytes')
    : Starves (r >>= f) (bytes ++ bytes') := by
  intro offset k hk
  rw [List.length_append] at hk
  by_cases hcut : k < bytes.length
  . rw [List.take_append_of_le_length (by omega)]
    exact hr.left f offset k hcut
  . -- The cut lies behind what `r` takes, so `r` succeeds and leaves a part of the rest.
    have htake : (bytes ++ bytes').take k = bytes ++ bytes'.take (k - bytes.length) := by
      rw [List.take_append, List.take_of_length_le (by omega)]
    have hrest := hf (offset + bytes.length) (k - bytes.length) (by omega)
    have hplace : offset + bytes.length + (k - bytes.length) = offset + k := by omega
    rw [hplace] at hrest
    rw [htake, Reader.run_bind_of_ok (hread offset _)]
    exact hrest

theorem get {f : Cursor → Reader α} {bytes : List UInt8} (h : ∀ c, Starves (f c) bytes)
    : Starves (MonadState.get >>= f) bytes :=
  fun offset k hk => h _ offset k hk

theorem byte (b : UInt8) : Starves Reader.byte [b] := by
  intro offset k hk
  have hzero : k = 0 := by simpa using hk
  subst hzero
  rfl

theorem groups {start place value left n : Nat} (h : n < 16 * Nat.pow 128 left)
    : Starves (Reader.groups start place value (left + 1)) (varintBytes n) := by
  induction left generalizing place value n with
  | zero =>
    have hn : n < 16 := h
    rw [varintBytes, if_pos (by omega)]
    exact (byte _).left _
  | succ left ih =>
    rw [varintBytes]
    split
    . exact (byte _).left _
    . next hn =>
      have hpow : Nat.pow 128 (left + 1) = Nat.pow 128 left * 128 := rfl
      have hbyte : (UInt8.ofNat (n % 128 + 128)).toNat = n % 128 + 128 :=
        UInt8.toNat_ofNat_of_lt' (show n % 128 + 128 < 256 by omega)
      apply bind (byte _) (Reads.byte _)
      rw [hbyte]
      dsimp only
      rw [if_neg (by omega), if_neg (by omega)]
      apply ih
      omega

theorem varint {n : Nat} (h : n < UInt32.size) : Starves Reader.varint (varintBytes n) := by
  apply get
  intro c
  apply groups
  exact h

theorem text (bytes : List UInt8) : Starves (Reader.text bytes.length) bytes := by
  intro offset k hk
  let cursor : Cursor := { offset, rest := bytes.take k }
  have hlength : cursor.rest.length = k := by
    rw [List.length_take]
    omega
  have hplace : cursor.length = offset + k := by
    rw [Cursor.length, hlength]
  change ((if cursor.rest.length < bytes.length then _ else _ : Reader String).run.run cursor).1 = _
  rw [if_pos (by omega), hplace]
  rfl

theorem name {name : Option String} {bytes : List UInt8} (h : nameBytes name = .ok bytes)
    : Starves Reader.name bytes := by
  cases name with
  | none =>
    cases h
    apply get
    intro c
    exact (byte 0).left _
  | some n =>
    unfold nameBytes at h
    dsimp only at h
    split at h
    . next hlength =>
      cases h
      apply get
      intro c
      rw [← List.singleton_append]
      apply bind (byte 1) (Reads.byte 1)
      apply bind (varint hlength) (Reads.varint hlength)
      exact (text _).left _
    . cases h

end Starves

/--
Whatever the writer gives continues `written`, and the reader runs out of bytes in it.
-/
def Fragile (written : List UInt8) (writer : Except Error (List UInt8)) (r : Reader α) : Prop :=
  ∀ bytes, writer = .ok bytes → ∃ rest, bytes = written ++ rest ∧ Starves r rest

theorem Fragile.bind_name {written : List UInt8} {k : List UInt8 → Except Error (List UInt8)}
    {f : Option String → Reader α} {first : Option String}
    (h : ∀ bytes, Fragile (written ++ bytes) (k bytes) (f first))
    : Fragile written (nameBytes first >>= k) (Reader.name >>= f) := by
  intro bytes hwritten
  rcases Persists.name first with ⟨name, hname, hread⟩ | ⟨_, _, _, herror⟩
  . rw [List.nil_append] at hname
    rw [hname] at hwritten
    rcases h name bytes hwritten with ⟨rest, hrest, hstarves⟩
    refine ⟨name ++ rest, ?_, (Starves.name hname).bind hread hstarves⟩
    rw [hrest, List.append_assoc]
  . rw [herror] at hwritten
    cases hwritten

theorem toBytes_fragile (s : Stub) : Fragile [] s.toBytes read := by
  unfold toBytes read
  apply Fragile.bind_name
  intro className
  apply Fragile.bind_name
  intro varName
  apply Fragile.bind_name
  intro superName
  apply Fragile.bind_name
  intro aliasName bytes hbytes
  cases hbytes
  exact ⟨_, rfl, (Starves.varint s.flags.bits.toNat_lt).left _⟩

theorem decode_of_error {bytes : List UInt8} {e : Error}
    (h : (read.run.run (Cursor.start bytes)).1 = .error e)
    : decode bytes = .error e := by
  unfold decode
  generalize read.run.run (Cursor.start bytes) = result at h
  rcases result with ⟨answer, c⟩
  cases h
  rfl

theorem read_take_eq_unexpectedEnd (s : Stub) (h : s.Short)
    : ∃ bytes, s.toBytes = .ok bytes ∧ ∀ k < bytes.length,
        (read.run.run (Cursor.start (bytes.take k))).1 = .error (.unexpectedEnd k) ∧
        decode (bytes.take k) = .error (.unexpectedEnd k) := by
  rcases h.toBytes_reads with ⟨bytes, hbytes, _⟩
  rcases s.toBytes_fragile bytes hbytes with ⟨_, rfl, hstarves⟩
  refine ⟨_, hbytes, ?_⟩
  intro k hk
  have hread := hstarves 0 k hk
  rw [Nat.zero_add] at hread
  exact ⟨hread, decode_of_error hread⟩

theorem read_take_eq_unexpectedEnd_street
    : let s : Stub := {
        className := some "Straße", varName := some "", superName := none, aliasName := some "é",
        flags := ⟨128⟩ }
      -- The first cut falls between the two bytes of a character, the other one into the flags.
      ∃ bytes, s.toBytes = .ok bytes ∧ bytes.length = 18 ∧
        (read.run.run (Cursor.start (bytes.take 7))).1 = .error (.unexpectedEnd 7) ∧
        decode (bytes.take 17) = .error (.unexpectedEnd 17) := by
  intro s
  rcases read_take_eq_unexpectedEnd s (by decide) with ⟨bytes, hbytes, hcut⟩
  have hlength : bytes.length = 18 := by
    have hsize : s.toBytes.toOption.map List.length = some 18 := by decide +kernel
    rw [hbytes] at hsize
    exact Option.some.inj hsize
  exact ⟨bytes, hbytes, hlength, (hcut 7 (by omega)).1, (hcut 17 (by omega)).2⟩

end Stub

end LuaClasses
