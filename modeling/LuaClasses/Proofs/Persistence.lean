import LuaClasses.Stub

/-!
This module contains the proof that what was written as a stub is read back, whatever follows it. A
reader is described by the bytes that it takes from the front and the value that it makes of them.
-/

namespace LuaClasses

namespace Stub

/--
In front of any other bytes, the reader takes exactly `bytes` and gives `a`.
-/
def Reads (r : Reader α) (bytes : List UInt8) (a : α) : Prop :=
  ∀ offset suffix, r.run.run { offset, rest := bytes ++ suffix }
    = (.ok a, { offset := offset + bytes.length, rest := suffix })

namespace Reads

theorem pure (a : α) : Reads (Pure.pure a) [] a :=
  fun _ _ => rfl

theorem bind {r : Reader α} {f : α → Reader β} {bytes bytes' : List UInt8} {a : α} {b : β}
    (hr : Reads r bytes a) (hf : Reads (f a) bytes' b)
    : Reads (r >>= f) (bytes ++ bytes') b := by
  intro offset suffix
  have hfirst := hr offset (bytes' ++ suffix)
  have hsecond := hf (offset + bytes.length) suffix
  rw [List.append_assoc, List.length_append, ← Nat.add_assoc, ← hsecond]
  rw [ExceptT.run_bind, StateT.run_bind, hfirst]
  rfl

theorem map {r : Reader α} {bytes : List UInt8} {a : α} (hr : Reads r bytes a) (f : α → β)
    : Reads (do return f (← r)) bytes (f a) := by
  have hmap : Reads (do return f (← r)) (bytes ++ []) (f a) := bind hr (pure _)
  rwa [List.append_nil] at hmap

theorem get {f : Cursor → Reader α} {bytes : List UInt8} {a : α} (h : ∀ c, Reads (f c) bytes a)
    : Reads (MonadState.get >>= f) bytes a :=
  fun offset suffix => h _ offset suffix

theorem byte (b : UInt8) : Reads Reader.byte [b] b :=
  fun _ _ => rfl

theorem lastGroup {start place value left n : Nat} (hn : n < 128) (hleft : left = 0 → n < 16)
    : Reads (Reader.groups start place value (left + 1)) [UInt8.ofNat n] (value + n * place) := by
  have hbyte : (UInt8.ofNat n).toNat = n := UInt8.toNat_ofNat_of_lt' (show n < 256 by omega)
  apply bind (byte _)
  rw [hbyte]
  dsimp only
  rw [if_neg (by omega), if_pos hn, Nat.mod_eq_of_lt hn]
  exact pure _

theorem groups {start place value left n : Nat} (h : n < 16 * Nat.pow 128 left)
    : Reads (Reader.groups start place value (left + 1)) (varintBytes n) (value + n * place) := by
  induction left generalizing place value n with
  | zero =>
    have hn : n < 16 := h
    rw [varintBytes, if_pos (by omega)]
    exact lastGroup (by omega) fun _ => hn
  | succ left ih =>
    rw [varintBytes]
    split
    . next hn => exact lastGroup hn nofun
    . next hn =>
      have hpow : Nat.pow 128 (left + 1) = Nat.pow 128 left * 128 := rfl
      have hbyte : (UInt8.ofNat (n % 128 + 128)).toNat = n % 128 + 128 :=
        UInt8.toNat_ofNat_of_lt' (show n % 128 + 128 < 256 by omega)
      have hlow : (n % 128 + 128) % 128 = n % 128 := by omega
      have hvalue : value + n * place = value + n % 128 * place + n / 128 * (128 * place) := by
        rw [← Nat.mul_assoc, Nat.mul_comm (n / 128) 128, Nat.add_assoc, ← Nat.add_mul,
          Nat.mod_add_div]
      apply bind (byte _)
      rw [hbyte, hvalue]
      dsimp only
      rw [if_neg (by omega), if_neg (by omega), hlow]
      apply ih
      omega

theorem varint {n : Nat} (h : n < UInt32.size) : Reads Reader.varint (varintBytes n) n := by
  apply get
  intro c
  have hgroups : Reads (Reader.groups c.offset 1 0 5) (varintBytes n) (0 + n * 1) := groups h
  rwa [Nat.zero_add, Nat.mul_one] at hgroups

theorem text (s : String)
    : Reads (Reader.text s.toUTF8.data.toList.length) s.toUTF8.data.toList s := by
  intro offset suffix
  have hvalid : String.fromUTF8? (ByteArray.mk s.toUTF8.data.toList.toArray) = some s := by
    rw [Array.toArray_toList, String.toUTF8_eq_toByteArray]
    exact dif_pos s.isValidUTF8
  generalize s.toUTF8.data.toList = bytes at hvalid
  let cursor : Cursor := { offset, rest := bytes ++ suffix }
  have hlength : ¬cursor.rest.length < bytes.length := by simp [cursor]
  have htake : cursor.rest.take bytes.length = bytes := List.take_left
  have hadvance : cursor.advance bytes.length
      = { offset := offset + bytes.length, rest := suffix } := by
    simp [cursor, Cursor.advance]
  rw [← hadvance]
  change (if cursor.rest.length < bytes.length then _ else _ : Reader String).run.run cursor = _
  rw [if_neg hlength, htake, hvalid]
  rfl

end Reads

/--
Either the writer continues `written` with bytes from which the reader gets `a`, or it fails because
one of the names is too long.
-/
def Persists (names : List (Option String)) (written : List UInt8)
    (writer : Except Error (List UInt8)) (r : Reader α) (a : α) : Prop :=
  (∃ bytes, writer = .ok (written ++ bytes) ∧ Reads r bytes a) ∨
  ∃ n, some n ∈ names ∧ UInt32.size ≤ n.utf8ByteSize ∧
    writer = .error (.nameTooLong n.utf8ByteSize)

namespace Persists

theorem name (name : Option String) : Persists [name] [] (nameBytes name) Reader.name name := by
  cases name with
  | none => exact .inl ⟨[0], rfl, .get fun _ => .bind (.byte 0) (.pure none)⟩
  | some n =>
    have hsize : n.toUTF8.data.toList.length = n.utf8ByteSize := rfl
    unfold nameBytes
    dsimp only
    split
    . next hlength =>
      have hread : Reads Reader.name ([1] ++ (_ ++ _)) (some n) :=
        .get fun _ => .bind (.byte 1) (.bind (.varint hlength) (.map (.text n) some))
      exact .inl ⟨_, rfl, hread⟩
    . next hlength =>
      rw [hsize] at hlength
      exact .inr ⟨n, List.mem_cons_self, Nat.le_of_not_lt hlength, by rw [hsize]⟩

theorem bind_name {names : List (Option String)} {written : List UInt8}
    {k : List UInt8 → Except Error (List UInt8)} {f : Option String → Reader α} {a : α}
    {first : Option String}
    (h : ∀ bytes, Persists names (written ++ bytes) (k bytes) (f first) a)
    : Persists (first :: names) written (nameBytes first >>= k) (Reader.name >>= f) a := by
  rcases name first with ⟨bytes, hbytes, hread⟩ | ⟨n, hn, hlength, herror⟩
  . rw [hbytes]
    rcases h bytes with ⟨more, hmore, hread'⟩ | ⟨n, hn, hlength, herror⟩
    . refine .inl ⟨bytes ++ more, ?_, hread.bind hread'⟩
      rw [← List.append_assoc]
      exact hmore
    . exact .inr ⟨n, List.mem_cons_of_mem _ hn, hlength, herror⟩
  . rw [herror]
    exact .inr ⟨n, List.mem_append_left names hn, hlength, rfl⟩

end Persists

/--
The names in a stub, in the order in which they are written.
-/
def names (s : Stub) : List (Option String) :=
  [s.className, s.varName, s.superName, s.aliasName]

theorem toBytes_persists (s : Stub) : Persists s.names [] s.toBytes read s := by
  unfold names toBytes read
  apply Persists.bind_name
  intro className
  apply Persists.bind_name
  intro varName
  apply Persists.bind_name
  intro superName
  apply Persists.bind_name
  intro aliasName
  have hflags : (⟨UInt32.ofNat s.flags.bits.toNat⟩ : Flags) = s.flags := by simp
  have hread := (Reads.varint s.flags.bits.toNat_lt).map fun n => ({
    className := s.className, varName := s.varName, superName := s.superName,
    aliasName := s.aliasName, flags := ⟨UInt32.ofNat n⟩ } : Stub)
  rw [hflags] at hread
  exact .inl ⟨_, rfl, hread⟩

theorem decode_eq_toClass {s : Stub} {bytes : List UInt8} (h : Reads read bytes s)
    : decode bytes = s.toClass := by
  have hread := h 0 []
  rw [List.append_nil] at hread
  unfold decode Cursor.start
  rw [hread]
  rfl

end Stub

end LuaClasses
