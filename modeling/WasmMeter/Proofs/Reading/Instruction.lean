import WasmMeter.Disassembly
import WasmMeter.Proofs.Reading.Consumption
import WasmMeter.Proofs.Reading.Offset

/-!
Reading one instruction. It takes at least one byte, and the bytes it takes decide what it is, wherever
they stand.
-/
namespace WasmMeter.Reader

variable {α β : Type}

/-- The first part takes a byte, and the second one gives none back. -/
theorem Progresses.bind {r : Reader α} {f : α → Reader β} (hr : Progresses r)
    (hf : ∀ a, SelfDelimiting (f a)) : Progresses (r >>= f) := by
  intro c b e h
  obtain ⟨a, d, ha, hb⟩ := bind_eq_ok_iff.1 h
  obtain ⟨bytes, hd, -⟩ := (hf a).advances hb
  have hfirst := hr c a d ha
  simp only [Cursor.remaining, hd, List.length_append] at hfirst ⊢
  omega

/-- Looking at the offset takes nothing, but what follows does. -/
theorem progresses_position_bind {f : Nat → Reader α} (hf : ∀ start, Progresses (f start)) :
    Progresses (position >>= f) := by
  intro c a d h
  exact hf c.position c a d h

/-- A new name for the end of the input changes no answer, so none gets shorter. -/
theorem Progresses.mapEnd {r : Reader α} (hr : Progresses r) (cause : Nat → Error) :
    Progresses (mapEnd cause r) := by
  intro c a d h
  exact hr c a d (mapEnd_eq_ok_iff.1 h)

/-- A reader that progresses reads no answer from no bytes. -/
theorem Progresses.ne_nil {r : Reader α} (hr : Progresses r) {bytes : List UInt8} {a : α}
    (h : Reads r bytes a) : bytes ≠ [] := by
  rintro rfl
  have := hr _ _ _ (h [] 0)
  simp [Cursor.remaining] at this

/-- An integer has one group at least. -/
theorem progresses_signedGroups (start last leading : Nat) :
    Progresses (signedGroups start last leading) := by
  cases leading with
  | zero =>
      refine progresses_byte.bind fun b => ?_
      dsimp only
      split
      · exact selfDelimiting_pure _
      · exact selfDelimiting_throw _
  | succ leading =>
      refine progresses_byte.bind fun b => ?_
      split
      · exact selfDelimiting_pure _
      · exact (selfDelimiting_signedGroups _ _ _).bind fun i => selfDelimiting_pure _

/-! ### Value types and block types -/

/-- A value type is one byte, whatever error is raised for a wrong one. -/
theorem selfDelimiting_valueType (cause : Nat → Error) : SelfDelimiting (valueType cause) := by
  refine selfDelimiting_position_bind fun start => selfDelimiting_byte.bind fun b => ?_
  split
  · exact selfDelimiting_pure _
  · exact selfDelimiting_throw _

theorem reads_valueType (cause : Nat → Error) (type : ValueType) :
    Reads (valueType cause) [type.toByte] type := by
  refine reads_position_bind fun start => ?_
  rw [← List.append_nil [type.toByte]]
  refine (reads_byte _).bind ?_
  rw [ValueType.ofByte?_toByte]
  exact reads_pure type

theorem yields_valueType (cause : Nat → Error) : Yields (valueType cause) fun _ n => n = 1 := by
  refine yields_position_bind fun start => yields_byte.bind fun b n hn => ?_
  split
  · exact yields_pure hn
  · exact yields_throw _

/-- A sequence of types was read from as many bytes as it is written in, or from more: its number may be
padded. -/
theorem yields_valueTypes (cause : Nat → Error) : Yields (vector (valueType cause)) fun types n =>
    (Bytes.vector (fun type => [ValueType.toByte type]) types).length ≤ n := by
  have hitem : Yields (valueType cause) fun type n => [ValueType.toByte type].length ≤ n :=
    (yields_valueType cause).mono fun _ _ hn => Nat.le_of_eq hn.symm
  exact yields_plain hitem

theorem uniform_immediateType : Uniform immediateType := by
  intro distance
  refine moves_position_bind fun start => moves_byte.bind fun b => ?_
  split
  · exact moves_pure _
  · exact moves_throw rfl

/-- Reads a block type whose first byte is known. -/
def blockTypeFrom (start : Nat) (first : UInt8) : Reader BlockType :=
  if first = 0x40 then do
    let _ ← byte
    return .empty
  else
    match ValueType.ofByte? first with
    | some type => do
        let _ ← byte
        return .value type
    | none => do
        let index ← signed 33
        if 0 ≤ index then return .typeIndex index.toNat.toUInt32
        else throw (.invalidImmediate start .invalidBlockType)

/-- The first byte tells which of the three forms a block type has. It is looked at and then read again.
-/
theorem blockType_cons (first : UInt8) (rest : List UInt8) (place : Nat) :
    blockType ⟨first :: rest, place⟩ = blockTypeFrom place first ⟨first :: rest, place⟩ := by
  unfold blockTypeFrom
  by_cases h : first = 0x40
  · subst h
    rfl
  · rw [if_neg h, blockType, position_bind, bind_of_ok (rfl : peek? _ = .ok (some first) _)]
    refine congrFun ?_ _
    split
    · next hf => cases hf; exact absurd rfl h
    · rfl

/-- Without a first byte there is no block type. -/
private theorem blockType_nil (place : Nat) (type : BlockType) (d : Cursor) :
    blockType ⟨[], place⟩ ≠ .ok type d := by
  intro h
  cases h

/-- The forms of one byte, and the index, end by themselves. -/
private theorem selfDelimiting_blockTypeFrom (start : Nat) (first : UInt8) :
    SelfDelimiting (blockTypeFrom start first) := by
  unfold blockTypeFrom
  split
  · exact selfDelimiting_byte.bind fun _ => selfDelimiting_pure _
  · split
    · exact selfDelimiting_byte.bind fun _ => selfDelimiting_pure _
    · refine (selfDelimiting_signed 33).bind fun index => ?_
      split
      · exact selfDelimiting_pure _
      · exact selfDelimiting_throw _

private theorem progresses_blockTypeFrom (start : Nat) (first : UInt8) :
    Progresses (blockTypeFrom start first) := by
  unfold blockTypeFrom
  split
  · exact progresses_byte.bind fun _ => selfDelimiting_pure _
  · split
    · exact progresses_byte.bind fun _ => selfDelimiting_pure _
    · refine (progresses_position_bind fun _ => progresses_signedGroups _ _ _).bind fun index => ?_
      split
      · exact selfDelimiting_pure _
      · exact selfDelimiting_throw _

/-- The first byte is looked at before it is taken, and it is always taken. -/
theorem selfDelimiting_blockType : SelfDelimiting blockType := by
  intro c type d h
  obtain ⟨unread, place⟩ := c
  cases unread with
  | nil => exact absurd h (blockType_nil place type d)
  | cons first rest =>
      rw [blockType_cons] at h
      obtain ⟨bytes, hu, hb⟩ := selfDelimiting_blockTypeFrom place first _ _ _ h
      have hlength := progresses_blockTypeFrom place first _ _ _ h
      cases bytes with
      | nil =>
          change first :: rest = d.unread at hu
          simp [Cursor.remaining, ← hu] at hlength
      | cons x bytes =>
          obtain ⟨rfl, -⟩ : first = x ∧ rest = bytes ++ d.unread := by simpa using hu
          refine ⟨first :: bytes, hu, fun rest => ?_⟩
          rw [List.cons_append, blockType_cons]
          exact hb rest

/-- The first byte of an index is neither that of an empty block type nor that of a value type. -/
theorem reads_blockType (type : BlockType) : Reads blockType type.toBytes type := by
  intro rest place
  cases type with
  | empty => rfl
  | value type =>
      have hfirst : type.toByte ≠ 0x40 := by cases type <;> decide
      rw [BlockType.toBytes, List.singleton_append, blockType_cons, blockTypeFrom, if_neg hfirst,
        ValueType.ofByte?_toByte]
      rfl
  | typeIndex index =>
      have hlt := index.toNat_lt
      have hindex : Reads (signed 33) (Leb128.ofInt index.toNat) index.toNat :=
        reads_signed 33 (by decide) (by omega)
      obtain ⟨first, behind, hbytes, hfirst⟩ := Leb128.exists_ofInt_natCast index.toNat
      have hempty : first ≠ 0x40 := by rintro rfl; revert hfirst; decide
      rw [hbytes] at hindex
      rw [BlockType.toBytes, hbytes, List.cons_append, blockType_cons, blockTypeFrom, if_neg hempty,
        ValueType.ofByte?_eq_none hfirst]
      dsimp only
      rw [← List.cons_append, bind_of_ok (hindex rest place), if_pos (Int.natCast_nonneg _),
        Int.toNat_natCast]
      exact congrArg (EStateM.Result.ok · _) (congrArg BlockType.typeIndex UInt32.ofNat_toNat)

/-- An index that is not negative is the number that it is kept as, so it is written as it was read. -/
theorem yields_blockTypeFrom (start : Nat) (first : UInt8) :
    Yields (blockTypeFrom start first) fun type n => type.toBytes.length ≤ n := by
  unfold blockTypeFrom
  split
  · exact yields_byte.bind fun _ n hn => yields_pure (by simp [BlockType.toBytes, hn])
  · split
    · exact yields_byte.bind fun _ n hn => yields_pure (by simp [BlockType.toBytes, hn])
    · refine (yields_signed (by decide)).bind fun index n hindex => ?_
      obtain ⟨hrange, hn⟩ := hindex
      split
      · next hnonneg =>
        have hlt : index.toNat < 2 ^ 32 := by omega
        have hkept : (index.toNat.toUInt32.toNat : Int) = index := by
          rw [UInt32.toNat_ofNat_of_lt' hlt, Int.toNat_of_nonneg hnonneg]
        refine yields_pure ?_
        rwa [BlockType.toBytes, hkept]
      · exact yields_throw _

/-- A block type is written in no more bytes than it was read from. -/
theorem yields_blockType : Yields blockType fun type n => type.toBytes.length ≤ n := by
  intro c type d h
  obtain ⟨unread, place⟩ := c
  cases unread with
  | nil => exact absurd h (blockType_nil place type d)
  | cons first rest =>
      rw [blockType_cons] at h
      exact yields_blockTypeFrom place first _ _ _ h

/-- A block type that is wrong is named by the offset of its first byte, which moves with it. -/
theorem uniform_blockType : Uniform blockType := by
  intro distance
  refine moves_position_bind fun start => moves_peek?.bind fun next => ?_
  split
  · exact moves_byte.bind fun _ => moves_pure _
  · split
    · exact moves_byte.bind fun _ => moves_pure _
    · refine (uniform_signed 33 distance).bind fun index => ?_
      split
      · exact moves_pure _
      · exact moves_throw rfl

/-! ### Opcodes, immediates and instructions -/

theorem selfDelimiting_opcode : SelfDelimiting opcode := by
  refine selfDelimiting_byte.bind fun first => ?_
  split
  · exact selfDelimiting_uint32.bind fun sub => selfDelimiting_pure _
  · exact selfDelimiting_pure _

/-- The error of an opcode names the opcode and its offset, and the offset moves. -/
theorem uniform_opcode : Uniform opcode := by
  intro distance
  refine moves_byte.bind fun first => ?_
  split
  · exact (uniform_uint32 distance).bind fun sub => moves_pure _
  · exact moves_pure _

/-- An opcode has one byte at least. -/
theorem progresses_opcode : Progresses opcode := by
  refine progresses_byte.bind fun first => ?_
  split
  · exact selfDelimiting_uint32.bind fun sub => selfDelimiting_pure _
  · exact selfDelimiting_pure _

/-- The shape of an immediate, and the counts in it, say where it ends. -/
theorem selfDelimiting_immediate (shape : Shape) : SelfDelimiting (immediate shape) := by
  have hu := selfDelimiting_uint32
  cases shape with
  | empty => exact selfDelimiting_pure _
  | block => exact selfDelimiting_blockType.bind fun _ => selfDelimiting_pure _
  | index => exact hu.bind fun _ => selfDelimiting_pure _
  | branchTable => exact hu.vector.bind fun _ => hu.bind fun _ => selfDelimiting_pure _
  | indirectCall => exact hu.bind fun _ => hu.bind fun _ => selfDelimiting_pure _
  | memory =>
      refine hu.bind fun align => ?_
      have hrest (memory : Option UInt32) :
          SelfDelimiting (return Immediate.memory align memory (← uint64)) :=
        selfDelimiting_uint64.bind fun _ => selfDelimiting_pure _
      dsimp only
      split
      · exact (hu.map some).bind hrest
      · exact (selfDelimiting_pure none).bind hrest
  | i32 => exact selfDelimiting_int32.bind fun _ => selfDelimiting_pure _
  | i64 => exact selfDelimiting_int64.bind fun _ => selfDelimiting_pure _
  | f32 => exact (selfDelimiting_word 4).bind fun _ => selfDelimiting_pure _
  | f64 => exact (selfDelimiting_word 8).bind fun _ => selfDelimiting_pure _
  | valueTypes => exact (selfDelimiting_valueType _).vector.bind fun _ => selfDelimiting_pure _
  | heapType => exact (selfDelimiting_valueType _).bind fun _ => selfDelimiting_pure _
  | indexPair => exact hu.bind fun _ => hu.bind fun _ => selfDelimiting_pure _

/-- No shape of an immediate asks where it stands. -/
theorem uniform_immediate (shape : Shape) : Uniform (immediate shape) := by
  intro distance
  have hu := uniform_uint32 distance
  cases shape with
  | empty => exact moves_pure _
  | block => exact (uniform_blockType distance).bind fun _ => moves_pure _
  | index => exact hu.bind fun _ => moves_pure _
  | branchTable =>
      exact (uniform_uint32.vector distance).bind fun _ => hu.bind fun _ => moves_pure _
  | indirectCall => exact hu.bind fun _ => hu.bind fun _ => moves_pure _
  | memory =>
      refine hu.bind fun align => ?_
      have hrest (memory : Option UInt32) :
          Moves distance (return Immediate.memory align memory (← uint64))
            (return Immediate.memory align memory (← uint64)) :=
        (uniform_uint64 distance).bind fun _ => moves_pure _
      dsimp only
      split
      · exact (hu.map some).bind hrest
      · exact (moves_pure none).bind hrest
  | i32 => exact (uniform_int32 distance).bind fun _ => moves_pure _
  | i64 => exact (uniform_int64 distance).bind fun _ => moves_pure _
  | f32 => exact (uniform_word 4 distance).bind fun _ => moves_pure _
  | f64 => exact (uniform_word 8 distance).bind fun _ => moves_pure _
  | valueTypes => exact (uniform_immediateType.vector distance).bind fun _ => moves_pure _
  | heapType => exact (uniform_immediateType distance).bind fun _ => moves_pure _
  | indexPair => exact hu.bind fun _ => hu.bind fun _ => moves_pure _

theorem selfDelimiting_instruction : SelfDelimiting instruction := by
  refine selfDelimiting_position_bind fun start => selfDelimiting_opcode.bind fun opcode => ?_
  split
  · exact (selfDelimiting_immediate _).bind fun _ => selfDelimiting_pure _
  · exact selfDelimiting_throw _

theorem uniform_instruction : Uniform instruction := by
  intro distance
  refine moves_position_bind fun start => (uniform_opcode distance).bind fun opcode => ?_
  split
  · exact (uniform_immediate _ distance).bind fun _ => moves_pure _
  · exact moves_throw rfl

/-- Reading one instruction after another comes to an end. -/
theorem progresses_instruction : Progresses instruction := by
  refine progresses_position_bind fun start => progresses_opcode.bind fun opcode => ?_
  split
  · exact (selfDelimiting_immediate _).bind fun _ => selfDelimiting_pure _
  · exact selfDelimiting_throw _

end WasmMeter.Reader
