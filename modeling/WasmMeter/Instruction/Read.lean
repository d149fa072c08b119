import WasmMeter.Bytes.Read
import WasmMeter.Instruction

/-!
Reading one instruction: its opcode, then an immediate of the shape that the opcode asks for. The
shape decides how the bytes are cut, so an unknown opcode cannot be skipped and is refused.
-/
namespace WasmMeter.Reader

/-- A value type; `cause` says what another byte at that offset is an error of. -/
def valueType (cause : Nat → Error) : Reader ValueType := do
  let start ← position
  match ValueType.ofByte? (← byte) with
  | some type => return type
  | none => throw (cause start)

/-- The type of a block. An index is written as a signed 33-bit integer and may not be negative. -/
def blockType : Reader BlockType := do
  let start ← position
  match ← peek? with
  | some 0x40 =>
      let _ ← byte
      return .empty
  | next =>
      match next.bind ValueType.ofByte? with
      | some type =>
          let _ ← byte
          return .value type
      | none =>
          let index ← signed 33
          if 0 ≤ index then return .typeIndex index.toNat.toUInt32
          else throw (.invalidImmediate start .invalidBlockType)

def opcode : Reader Opcode := do
  let first ← byte
  if first = Opcode.prefixByte then return .prefixed first (← uint32)
  else return .plain first

/-- A value type inside an immediate. -/
def immediateType : Reader ValueType := valueType (.invalidImmediate · .invalidValueType)

/-- An immediate of a given shape. -/
def immediate : Shape → Reader Immediate
  | .empty => return .empty
  | .block => return .block (← blockType)
  | .index => return .index (← uint32)
  | .branchTable => do
      let targets ← vector uint32
      return .branchTable targets (← uint32)
  | .indirectCall => do
      let typeIndex ← uint32
      return .indirectCall typeIndex (← uint32)
  | .memory => do
      let align ← uint32
      let memory ← if Immediate.namesMemory align then some <$> uint32 else pure none
      return .memory align memory (← uint64)
  | .i32 => return .i32 (← int32)
  | .i64 => return .i64 (← int64)
  | .f32 => return .f32 (← word 4).toUInt32
  | .f64 => return .f64 (← word 8).toUInt64
  | .valueTypes => return .valueTypes (← vector immediateType)
  | .heapType => return .heapType (← immediateType)
  | .indexPair => do
      let first ← uint32
      return .indexPair first (← uint32)

/-- An opcode with its immediate. -/
def instruction : Reader (Opcode × Immediate) := do
  let start ← position
  let opcode ← opcode
  match opcode.shape? with
  | some shape => return (opcode, ← immediate shape)
  | none => throw (.unknownOpcode opcode.byte opcode.sub? start)

end WasmMeter.Reader
