import WasmMeter.Proofs.Reading.Instruction

/-!
Operations and their shortest encodings. An operation of a known opcode with an immediate that it takes
is read back from its shortest encoding, which ends where its own bytes say, whatever stands behind it.
Whatever is read is such an operation, from no fewer bytes than it is written in.
-/
namespace WasmMeter

namespace Immediate

/-- The shortest encoding says all of the immediate: the index of a memory is written only if the
alignment announces it, and a length is a 32-bit integer. -/
def WellFormed : Immediate → Prop
  | memory align number _ => number.isSome = namesMemory align
  | branchTable targets _ => targets.length < 2 ^ 32
  | valueTypes types => types.length < 2 ^ 32
  | _ => True

instance : DecidablePred WellFormed
  | memory align number _ => inferInstanceAs (Decidable (number.isSome = namesMemory align))
  | branchTable targets _ => inferInstanceAs (Decidable (targets.length < 2 ^ 32))
  | valueTypes types => inferInstanceAs (Decidable (types.length < 2 ^ 32))
  | empty | block _ | index _ | indirectCall _ _ | i32 _ | i64 _ | f32 _ | f64 _ | heapType _
  | indexPair _ _ => isTrue trivial

end Immediate

/-- An immediate that goes with an opcode: of the shape that it asks for, and well-formed. -/
structure Opcode.Takes (opcode : Opcode) (immediate : Immediate) : Prop where
  shape : opcode.shape? = some immediate.shape
  wellFormed : immediate.WellFormed

instance (opcode : Opcode) (immediate : Immediate) : Decidable (opcode.Takes immediate) :=
  decidable_of_iff (opcode.shape? = some immediate.shape ∧ immediate.WellFormed)
    ⟨fun h => ⟨h.1, h.2⟩, fun h => ⟨h.shape, h.wellFormed⟩⟩

namespace Reader

/-- Two indices, one behind the other. -/
theorem reads_uint32_uint32 (first second : UInt32) (f : UInt32 → UInt32 → Immediate) :
    Reads (do let a ← uint32; return f a (← uint32))
      (Bytes.ofUInt32 first ++ Bytes.ofUInt32 second) (f first second) :=
  (reads_uint32 first).bind ((reads_uint32 second).bind_pure (f first))

theorem reads_memory {align : UInt32} {number : Option UInt32}
    (h : number.isSome = Immediate.namesMemory align) (offset : UInt64) :
    Reads (immediate .memory) (Immediate.memory align number offset).toBytes
      (.memory align number offset) := by
  have hoffset := (reads_uint64 offset).bind_pure (Immediate.memory align number)
  rw [Immediate.toBytes, List.append_assoc]
  refine (reads_uint32 align).bind ?_
  dsimp only
  rw [← h]
  cases number with
  | none => exact (reads_pure none).bind hoffset
  | some index => exact ((reads_uint32 index).map some).bind hoffset

/-- An immediate is read back under its own shape. -/
theorem reads_immediate {operand : Immediate} (h : operand.WellFormed) :
    Reads (immediate operand.shape) operand.toBytes operand := by
  cases operand with
  | empty => exact reads_pure _
  | block type => exact (reads_blockType type).bind_pure Immediate.block
  | index index => exact (reads_uint32 index).bind_pure Immediate.index
  | branchTable targets default =>
      exact (reads_vector h fun index _ => reads_uint32 index).bind
        ((reads_uint32 default).bind_pure (Immediate.branchTable targets))
  | indirectCall typeIndex table => exact reads_uint32_uint32 typeIndex table _
  | memory align number offset => exact reads_memory h offset
  | i32 value => exact (reads_int32 value).bind_pure Immediate.i32
  | i64 value => exact (reads_int64 value).bind_pure Immediate.i64
  | f32 bits =>
      have hlt : bits.toNat < 256 ^ 4 := bits.toNat_lt
      have hword := (reads_word hlt).bind_pure fun n => Immediate.f32 n.toUInt32
      rwa [show bits.toNat.toUInt32 = bits from UInt32.ofNat_toNat] at hword
  | f64 bits =>
      have hlt : bits.toNat < 256 ^ 8 := bits.toNat_lt
      have hword := (reads_word hlt).bind_pure fun n => Immediate.f64 n.toUInt64
      rwa [show bits.toNat.toUInt64 = bits from UInt64.ofNat_toNat] at hword
  | valueTypes types =>
      exact (reads_vector h fun type _ => reads_valueType _ type).bind_pure Immediate.valueTypes
  | heapType type => exact (reads_valueType _ type).bind_pure Immediate.heapType
  | indexPair first second => exact reads_uint32_uint32 first second _

theorem reads_plain {b : UInt8} (h : b ≠ Opcode.prefixByte) :
    Reads opcode (Opcode.plain b).toBytes (.plain b) := by
  rw [Opcode.toBytes, ← List.append_nil [b]]
  refine (reads_byte b).bind ?_
  rw [if_neg h]
  exact reads_pure (Opcode.plain b)

/-- No opcode of a single byte is the prefix, and every other has the prefix for its first byte. -/
theorem reads_opcode {code : Opcode} {shape : Shape} (h : code.shape? = some shape) :
    Reads opcode code.toBytes code := by
  cases code with
  | plain b =>
      refine reads_plain ?_
      rintro rfl
      have hunknown : (Opcode.plain Opcode.prefixByte).shape? = none := by decide
      rw [hunknown] at h
      cases h
  | prefixed b sub =>
      by_cases hprefix : b = Opcode.prefixByte
      · refine (reads_byte b).bind ?_
        rw [if_pos hprefix]
        exact (reads_uint32 sub).bind_pure (Opcode.prefixed b)
      · rw [Opcode.shape?, Opcode.lookup?, if_neg hprefix] at h
        cases h

/-- An opcode and an immediate that it takes are read back. -/
theorem reads_operation {code : Opcode} {operand : Immediate} (h : code.Takes operand) :
    Reads instruction (code.toBytes ++ operand.toBytes) (code, operand) := by
  refine reads_position_bind fun start => (reads_opcode h.shape).bind ?_
  simp only [h.shape]
  exact (reads_immediate h.wellFormed).bind_pure (code, ·)

/-! ### What is read -/

theorem yields_uint32_uint32 (f : UInt32 → UInt32 → Immediate) :
    Yields (do let a ← uint32; return f a (← uint32)) fun operand n =>
      ∃ first second, operand = f first second ∧
        (Bytes.ofUInt32 first ++ Bytes.ofUInt32 second).length ≤ n := by
  refine yields_uint32.bind fun first n hn => yields_uint32.bind fun second m hm =>
    yields_pure ⟨first, second, rfl, ?_⟩
  rw [List.length_append]
  omega

/-- The index of a memory is read exactly if the alignment announces it. -/
theorem yields_memory : Yields (immediate .memory) fun operand n =>
    operand.shape = .memory ∧ operand.WellFormed ∧ operand.toBytes.length ≤ n := by
  refine yields_uint32.bind fun align n hn => ?_
  have hrest (number : Option UInt32) (m : Nat)
      (hannounced : number.isSome = Immediate.namesMemory align)
      (hm : ((number.map Bytes.ofUInt32).getD []).length ≤ m) :
      Yields (return Immediate.memory align number (← uint64)) fun operand p =>
        operand.shape = .memory ∧ operand.WellFormed ∧ operand.toBytes.length ≤ n + (m + p) := by
    refine yields_uint64.bind fun offset p hp => yields_pure ⟨rfl, hannounced, ?_⟩
    simp only [Immediate.toBytes, List.length_append]
    omega
  dsimp only
  split
  · next h =>
    exact (yields_uint32.map (R := fun number m =>
      number.isSome = true ∧ ((number.map Bytes.ofUInt32).getD []).length ≤ m)
      fun _ _ hm => ⟨rfl, hm⟩).bind fun number m hnumber =>
        hrest number m (hnumber.1.trans h.symm) hnumber.2
  · next h =>
    exact (yields_pure (P := fun number m => number = none ∧ m = 0) ⟨rfl, rfl⟩).bind
      fun number m hnumber => hrest number m (by simp [hnumber.1, h]) (by simp [hnumber.1])

/-- What is read as an immediate of a shape has that shape, is well-formed, and is not written in more
bytes. -/
theorem yields_immediate (shape : Shape) : Yields (immediate shape) fun operand n =>
    operand.shape = shape ∧ operand.WellFormed ∧ operand.toBytes.length ≤ n := by
  cases shape with
  | empty => exact yields_pure ⟨rfl, trivial, Nat.le_refl 0⟩
  | block => exact yields_blockType.bind fun _ _ hn => yields_pure ⟨rfl, trivial, hn⟩
  | index => exact yields_uint32.bind fun _ _ hn => yields_pure ⟨rfl, trivial, hn⟩
  | branchTable =>
      refine ((yields_length_vector selfDelimiting_uint32).and (yields_plain yields_uint32)).bind
        fun targets n htargets => yields_uint32.bind fun default m hm =>
          yields_pure ⟨rfl, htargets.1, ?_⟩
      have hn := htargets.2
      rw [Immediate.toBytes, List.length_append]
      omega
  | indirectCall =>
      refine (yields_uint32_uint32 _).mono ?_
      rintro _ n ⟨typeIndex, table, rfl, hn⟩
      exact ⟨rfl, trivial, hn⟩
  | memory => exact yields_memory
  | i32 => exact yields_int32.bind fun _ _ hn => yields_pure ⟨rfl, trivial, hn⟩
  | i64 => exact yields_int64.bind fun _ _ hn => yields_pure ⟨rfl, trivial, hn⟩
  | f32 =>
      exact (yields_word 4).bind fun _ _ hn =>
        yields_pure ⟨rfl, trivial, by simp [Immediate.toBytes, hn]⟩
  | f64 =>
      exact (yields_word 8).bind fun _ _ hn =>
        yields_pure ⟨rfl, trivial, by simp [Immediate.toBytes, hn]⟩
  | valueTypes =>
      exact ((yields_length_vector (selfDelimiting_valueType _)).and (yields_valueTypes _)).bind
        fun _ _ htypes => yields_pure ⟨rfl, htypes⟩
  | heapType =>
      exact (yields_valueType _).bind fun _ _ hn =>
        yields_pure ⟨rfl, trivial, Nat.le_of_eq hn.symm⟩
  | indexPair =>
      refine (yields_uint32_uint32 _).mono ?_
      rintro _ n ⟨first, second, rfl, hn⟩
      exact ⟨rfl, trivial, hn⟩

theorem yields_opcode : Yields opcode fun code n => code.toBytes.length ≤ n := by
  refine yields_byte.bind fun first n hn => ?_
  split
  · refine yields_uint32.bind fun sub m hm => yields_pure ?_
    rw [Opcode.toBytes, List.length_cons]
    omega
  · exact yields_pure (Nat.le_of_eq hn.symm)

/-- The opcode of an operation that was read takes the immediate that was read. -/
theorem yields_instruction : Yields instruction fun operation n =>
    operation.1.Takes operation.2 ∧
      (operation.1.toBytes ++ operation.2.toBytes).length ≤ n := by
  refine yields_position_bind fun start => yields_opcode.bind fun code n hn => ?_
  split
  · next shape hshape =>
    refine (yields_immediate shape).bind fun operand m hoperand => yields_pure ?_
    obtain ⟨rfl, hwell, hm⟩ := hoperand
    refine ⟨⟨hshape, hwell⟩, ?_⟩
    rw [List.length_append]
    exact Nat.add_le_add hn hm
  · exact yields_throw _

/-- The codec of operations. A known opcode with any immediate that it takes is read back from its
shortest encoding, of which nothing is left and behind which nothing is taken, whatever stands there.
Conversely, whatever is read is a known opcode with an immediate that it takes, and the bytes that were
taken are no fewer than those of its shortest encoding. -/
theorem operations_written :
    (∀ code operand, code.Takes operand →
      Reads instruction (Instruction.new code operand).canonical (code, operand)) ∧
    ∀ c code operand d, instruction c = .ok (code, operand) d → code.Takes operand ∧
      ∃ source, c.unread = source ++ d.unread ∧ d.position = c.position + source.length ∧
        (Instruction.new code operand).canonical.length ≤ source.length := by
  refine ⟨fun code operand h => reads_operation h, fun c code operand d h => ?_⟩
  obtain ⟨n, hn, htakes, hlength⟩ := yields_instruction c (code, operand) d h
  obtain ⟨source, hu, hposition⟩ := selfDelimiting_instruction.advances h
  refine ⟨htakes, source, hu, hposition, Nat.le_trans hlength ?_⟩
  simp only [Cursor.remaining, hu, List.length_append] at hn
  omega

/-- A load from the memory with index one, which the alignment announces; then the same load with an
alignment of two groups where one would do. -/
theorem operations_written_load :
    Reads instruction (Instruction.new (.plain 0x28) (.memory 0x42 (some 1) 8)).canonical
        (.plain 0x28, .memory 0x42 (some 1) 8) ∧
      (Opcode.plain 0x28).Takes (.memory 0x42 (some 1) 8) ∧
      ∃ source : List UInt8, [0x28, 0xc2, 0x00, 0x01, 0x08, 0x0b] = source ++ [0x0b] ∧
        5 = 0 + source.length ∧
        (Instruction.new (.plain 0x28) (.memory 0x42 (some 1) 8)).canonical.length ≤
          source.length :=
  ⟨operations_written.1 _ _ (by decide),
    operations_written.2 ⟨[0x28, 0xc2, 0x00, 0x01, 0x08, 0x0b], 0⟩ _ _ ⟨[0x0b], 5⟩ rfl⟩

end Reader

end WasmMeter
