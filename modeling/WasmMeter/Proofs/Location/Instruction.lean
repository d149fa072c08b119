import WasmMeter.Proofs.Location.Reading

/-!
Where errors in code are. An instruction that is not known is where its opcode is, a terminator that
closes nothing where it stands, and what is behind the end of the body where the body ends.
-/
namespace WasmMeter

open Reader

variable {input : List UInt8} {base : Nat}

/-- An immediate that is wrong begins at a byte of the input. -/
theorem locatedIn_invalidImmediate {start : Nat} {flaw : ImmediateFlaw} (h : IsPlace input base start)
    (hne : input.drop start ≠ []) : (Error.invalidImmediate start flaw).LocatedIn input base :=
  Error.locatedIn_of_offset rfl h hne

/-- A body may end anywhere in the input, or at its end. -/
theorem locatedIn_truncatedBody {position : Nat} (h : IsPlace input base position) :
    (Error.truncatedBody position).LocatedIn input base :=
  Error.locatedIn_of_offset rfl h trivial

namespace Reader

/-! ### Value types and block types -/

/-- A byte that is no value type is in the input, at the place the error names. -/
theorem locates_valueType {cause : Nat → Error} (hcause : ∀ start, IsPlace input base start →
    input.drop start ≠ [] → (cause start).LocatedIn input base) :
    Locates input base (valueType cause) fun _ => True := by
  refine locates_byte.position_bind tells_byte fun start b hplace hhead _ => ?_
  split
  · exact locates_pure trivial
  · exact locates_throw (hcause start hplace fun hnil => by simp [hnil] at hhead)

theorem locates_immediateType : Locates input base immediateType fun _ => True :=
  locates_valueType fun _ => locatedIn_invalidImmediate

/-- The type of a block is looked at before anything is taken, so a wrong one is not behind the
input. -/
theorem locates_blockType : Locates input base blockType fun _ => True := by
  refine locates_of_eq fun c hc => ?_
  have hplace := hc.isPlace
  obtain ⟨rest, hdrop⟩ := hc.exists_drop_eq
  obtain ⟨unread, start⟩ := c
  cases unread with
  | nil =>
      -- Without a first byte an index is expected, and it is missing.
      exact ⟨throw (.unexpectedEnd start 1), rfl, locates_throw (locatedIn_unexpectedEnd hplace)⟩
  | cons first unread =>
      have hne : input.drop start ≠ [] := by simp [hdrop]
      refine ⟨_, bind_of_ok (rfl : position _ = .ok start _), ?_⟩
      have hpeek : Locates input base peek? fun _ => True := by
        refine ⟨fun hc h => ?_, fun _ h => ?_⟩ <;> cases h
        exact ⟨hc, trivial⟩
      refine hpeek.bind fun next _ => ?_
      split
      · exact locates_byte.bind_pure _
      · split
        · exact locates_byte.bind_pure _
        · refine (locates_signed (by decide)).bind fun index _ => ?_
          split
          · exact locates_pure trivial
          · exact locates_throw (locatedIn_invalidImmediate hplace hne)

/-! ### Opcodes, immediates and instructions -/

/-- Reading an opcode fails only where it is cut short; whether it is known is asked later. -/
theorem locates_opcode : Locates input base opcode fun _ => True := by
  refine locates_byte.bind fun first _ => ?_
  split
  · exact locates_uint32.bind_pure _
  · exact locates_pure trivial

/-- The first byte of an opcode is the byte that it is known by. -/
theorem tells_opcode : Tells opcode fun bytes code => bytes.head? = some code.byte := by
  intro c code d h rest
  obtain ⟨first, middle, hfirst, h⟩ := bind_eq_ok_iff.1 h
  have hbyte : code.byte = first := by
    split at h
    · obtain ⟨sub, e, -, h⟩ := bind_eq_ok_iff.1 h
      obtain ⟨rfl, -⟩ := pure_eq_ok_iff.1 h
      rfl
    · obtain ⟨rfl, -⟩ := pure_eq_ok_iff.1 h
      rfl
  rw [hbyte]
  exact tells_byte _ _ _ hfirst rest

/-- Every part of an immediate is an integer, a number of bytes, or a type at a place of the input. -/
theorem locates_immediate (shape : Shape) : Locates input base (immediate shape) fun _ => True := by
  have hu : Locates input base uint32 fun _ => True := locates_uint32
  cases shape with
  | empty => exact locates_pure trivial
  | block => exact locates_blockType.bind_pure _
  | index => exact hu.bind_pure _
  | branchTable => exact hu.vector.bind fun _ _ => hu.bind_pure _
  | indirectCall => exact hu.bind fun _ _ => hu.bind_pure _
  | memory =>
      refine hu.bind fun align _ => ?_
      have hrest (memory : Option UInt32) :
          Locates input base (return Immediate.memory align memory (← uint64)) fun _ => True :=
        locates_uint64.bind_pure _
      dsimp only
      split
      · exact (hu.bind_pure some).bind fun memory _ => hrest memory
      · exact (locates_pure (P := fun _ => True) trivial).bind fun memory _ => hrest memory
  | i32 => exact locates_int32.bind_pure _
  | i64 => exact locates_int64.bind_pure _
  | f32 => exact (locates_word 4).bind_pure _
  | f64 => exact (locates_word 8).bind_pure _
  | valueTypes => exact locates_immediateType.vector.bind_pure _
  | heapType => exact locates_immediateType.bind_pure _
  | indexPair => exact hu.bind fun _ _ => hu.bind_pure _

/-- An opcode that is unknown is named at its place, and its first byte stands there. -/
theorem locates_instruction : Locates input base instruction fun _ => True := by
  refine locates_opcode.position_bind tells_opcode fun start code hplace hhead _ => ?_
  split
  · exact (locates_immediate _).bind_pure _
  · exact locates_throw (Error.locatedIn_of_offset rfl hplace hhead)

/-- An instruction begins with the byte of its opcode. -/
theorem tells_instruction :
    Tells instruction fun bytes operation => bytes.head? = some operation.1.byte := by
  intro c operation d h rest
  rw [instruction, position_bind] at h
  obtain ⟨code, middle, hcode, h⟩ := bind_eq_ok_iff.1 h
  have hfirst : operation.1 = code := by
    cases hshape : code.shape? with
    | some shape =>
        rw [hshape] at h
        obtain ⟨operand, e, -, h⟩ := bind_eq_ok_iff.1 h
        obtain ⟨rfl, -⟩ := pure_eq_ok_iff.1 h
        rfl
    | none =>
        rw [hshape] at h
        exact absurd h throw_ne_ok
  rw [hfirst]
  exact tells_opcode _ _ _ hcode rest

end Reader

/-! ### Sequences -/

/-- Only one opcode divides a conditional. -/
theorem Opcode.eq_elseArm_of_role? {code : Opcode} (h : code.role? = some .elseArm) :
    code = .elseArm := by
  unfold role? at h
  split_ifs at h <;> first | assumption | cases h

/-- Only a second arm can stand where no block is open for it. -/
theorem Nesting.eq_elseArm_of_unmatched {blocks : Nesting} {position : Nat} {role : Option BlockRole}
    {type : BlockType} (h : blocks.step position role type = .unmatched) : role = some .elseArm := by
  unfold step at h
  split at h <;> first | rfl | cases h

namespace Disassembly

/-- A terminator that closes nothing is at the place that the error names, an arm or an ending. -/
theorem locates_next (p : Progress) : Locates input base p.next fun _ => True := by
  have hinstruction : Locates input base (withSource (mapEnd .truncatedBody instruction)) fun _ => True :=
    (locates_instruction.mapEnd fun _ => locatedIn_truncatedBody).withSource
  have htells : Tells (withSource (mapEnd .truncatedBody instruction)) fun bytes answer =>
      bytes.head? = some answer.1.1.byte :=
    fun _ _ _ h => tells_instruction _ _ _ (mapEnd_eq_ok_iff.1 (withSource_eq_ok_iff.1 h).1)
  refine hinstruction.position_bind htells ?_
  rintro start ⟨⟨code, operand⟩, source⟩ hplace hhead -
  dsimp only
  split
  · exact locates_pure trivial
  · exact locates_pure trivial
  · next h =>
    obtain rfl := Opcode.eq_elseArm_of_role? (Nesting.eq_elseArm_of_unmatched h)
    exact locates_throw (Error.locatedIn_of_offset rfl hplace (.inl hhead))

/-- Errors in code are located, turn by turn. -/
theorem locates_read : Locates input base read fun _ => True :=
  Locates.whileUnread locates_next
    (fun _ => locates_position.bind fun _ h => locates_throw (locatedIn_truncatedBody h)) _

/-- Behind the end of a body there may be a terminator or something else. -/
theorem locates_checkEnd : Locates input base checkEnd fun _ => True := by
  refine locates_of_eq fun c hc => ?_
  have hplace := hc.isPlace
  obtain ⟨rest, hdrop⟩ := hc.exists_drop_eq
  obtain ⟨unread, start⟩ := c
  cases unread with
  | nil => exact ⟨pure (), rfl, locates_pure trivial⟩
  | cons next unread =>
      have hhead : (input.drop start).head? = some next := by rw [hdrop]; rfl
      refine ⟨if Opcode.plain next = .elseArm ∨ Opcode.plain next = .ending then
        throw (.unmatchedBlockEnd start) else throw (.trailingCode start), rfl, ?_⟩
      split
      · next hterminator =>
        refine locates_throw (Error.locatedIn_of_offset rfl hplace (hterminator.imp ?_ ?_))
        · rintro ⟨⟩
          exact hhead
        · rintro ⟨⟩
          exact hhead
      · next hother =>
        obtain ⟨helse, hending⟩ := not_or.1 hother
        exact locates_throw (Error.locatedIn_of_offset rfl hplace
          ⟨next, hhead, fun h => helse (h ▸ rfl), fun h => hending (h ▸ rfl)⟩)

/-- What is wrong with code is found in the code. -/
theorem locatedIn_ofBytesAt {place : Nat} {code : List UInt8} {e : Error}
    (hcode : (Cursor.mk code place).LiesFrom input base) (h : ofBytesAt place code = .error e) :
    e.LocatedIn input base := by
  obtain ⟨d, h⟩ := answer_eq_error_iff.1 h
  exact (locates_read.bind fun d _ => locates_checkEnd.bind_pure fun _ => d).failure hcode h

/-- What is wrong with code is found in the code or at its end, whatever stands in front of it. -/
theorem offset_mem_of_ofBytesAt {code : List UInt8} {e : Error}
    (h : ofBytesAt base code = .error e) {n : Nat} (hn : e.offset? = some n) :
    base ≤ n ∧ n ≤ base + code.length := by
  have hcode : (Cursor.mk code base).LiesFrom (List.replicate base 0 ++ code) base :=
    ⟨⟨List.replicate base 0, [], by rw [List.append_nil], List.length_replicate⟩, Nat.le_refl base⟩
  have hplace := (locatedIn_ofBytesAt hcode h n hn).1
  rwa [IsPlace, List.length_append, List.length_replicate] at hplace

end Disassembly

end WasmMeter
