import WasmMeter.Bytes
import WasmMeter.Opcode
import WasmMeter.ValueType

/-!
Instructions. An instruction that was read from bytes keeps those bytes as long as its immediate is
not changed, so it is written back as it was found; any other is written in the shortest form.
-/
namespace WasmMeter

/-- The type of a block: none, one result, or an entry of the type section. -/
inductive BlockType where
  | empty
  | value (type : ValueType)
  | typeIndex (index : UInt32)
deriving DecidableEq, Repr

/-- What follows an opcode. Floating-point constants are raw bits; in `memory` the sixth bit of
`align` says that the index of a memory is written. -/
inductive Immediate where
  | empty
  | block (type : BlockType)
  | index (index : UInt32)
  | branchTable (targets : List UInt32) (default : UInt32)
  | indirectCall (typeIndex table : UInt32)
  | memory (align : UInt32) (memory : Option UInt32) (offset : UInt64)
  | i32 (value : Int32)
  | i64 (value : Int64)
  | f32 (bits : UInt32)
  | f64 (bits : UInt64)
  | valueTypes (types : List ValueType)
  | heapType (type : ValueType)
  | indexPair (first second : UInt32)
deriving DecidableEq, Repr

/-- The part that an instruction plays in the nesting of blocks. -/
inductive BlockRole where
  | block
  | loop
  | ifBlock
  | elseArm
  | ending
deriving DecidableEq, Repr

/-- Where an instruction stands in the nesting of blocks: the depth of its block, the body being at
depth zero, the type of the block, and the position of the instruction that opened it. An opening
instruction and the end of the body have no opener. -/
structure BlockMark where
  role : BlockRole
  depth : Nat
  type : BlockType
  opener : Option Nat
deriving DecidableEq, Repr

/-- An instruction. The source is the bytes it was read from, while they are still its encoding. -/
structure Instruction where
  opcode : Opcode
  immediate : Immediate
  mark : Option BlockMark
  source : Option (List UInt8)
deriving DecidableEq, Repr

namespace BlockType

/-- A block type is a single byte or an index written as a signed integer. -/
def toBytes : BlockType → List UInt8
  | empty => [0x40]
  | value type => [type.toByte]
  | typeIndex i => Leb128.ofInt i.toNat

end BlockType

namespace Immediate

def shape : Immediate → Shape
  | empty => .empty
  | block _ => .block
  | index _ => .index
  | branchTable _ _ => .branchTable
  | indirectCall _ _ => .indirectCall
  | memory _ _ _ => .memory
  | i32 _ => .i32
  | i64 _ => .i64
  | f32 _ => .f32
  | f64 _ => .f64
  | valueTypes _ => .valueTypes
  | heapType _ => .heapType
  | indexPair _ _ => .indexPair

/-- Does an alignment announce the index of a memory? -/
def namesMemory (align : UInt32) : Bool := align &&& 0x40 != 0

/-- The immediate in its shortest form. -/
def toBytes : Immediate → List UInt8
  | .empty => []
  | .block type => type.toBytes
  | .index i => Bytes.ofUInt32 i
  | .branchTable targets default => Bytes.vector Bytes.ofUInt32 targets ++ Bytes.ofUInt32 default
  | .indirectCall typeIndex table => Bytes.ofUInt32 typeIndex ++ Bytes.ofUInt32 table
  | .memory align number offset =>
      Bytes.ofUInt32 align ++ (number.map Bytes.ofUInt32).getD [] ++ Bytes.ofUInt64 offset
  | .i32 value => Bytes.ofInt32 value
  | .i64 value => Bytes.ofInt64 value
  | .f32 bits => Bytes.ofWord 4 bits.toNat
  | .f64 bits => Bytes.ofWord 8 bits.toNat
  | .valueTypes types => Bytes.vector (fun type => [type.toByte]) types
  | .heapType type => [type.toByte]
  | .indexPair first second => Bytes.ofUInt32 first ++ Bytes.ofUInt32 second

end Immediate

namespace Opcode

def toBytes : Opcode → List UInt8
  | plain byte => [byte]
  | prefixed byte sub => byte :: Bytes.ofUInt32 sub

/-- The part that instructions with this opcode play in the nesting of blocks. -/
def role? (opcode : Opcode) : Option BlockRole :=
  if opcode = block then some .block
  else if opcode = loop then some .loop
  else if opcode = ifBlock then some .ifBlock
  else if opcode = elseArm then some .elseArm
  else if opcode = ending then some .ending
  else none

end Opcode

namespace Instruction

/-- An instruction that was not read from anywhere. -/
def new (opcode : Opcode) (immediate : Immediate) : Instruction :=
  ⟨opcode, immediate, none, none⟩

/-- Calls a function. -/
def call (function : UInt32) : Instruction := new .call (.index function)

/-- Puts a constant on the stack. -/
def i32Const (value : Int32) : Instruction := new .i32Const (.i32 value)

/-- The instruction with another immediate. Setting the immediate it already has changes nothing;
another one makes it forget the bytes it was read from. -/
def withImmediate (instruction : Instruction) (immediate : Immediate) : Instruction :=
  if instruction.immediate = immediate then instruction
  else { instruction with immediate := immediate, source := none }

/-- The index of the function that the instruction calls or refers to. -/
def function? (instruction : Instruction) : Option UInt32 :=
  match instruction.immediate with
  | .index index => if instruction.opcode.namesFunction then some index else none
  | _ => none

/-- Replaces the index of the function that the instruction refers to, if it refers to one. -/
def mapFunction (f : UInt32 → UInt32) (instruction : Instruction) : Instruction :=
  match instruction.function? with
  | some index => instruction.withImmediate (.index (f index))
  | none => instruction

/-- The shortest encoding. -/
def canonical (instruction : Instruction) : List UInt8 :=
  instruction.opcode.toBytes ++ instruction.immediate.toBytes

/-- What the instruction is written as: the bytes it was read from, or else the shortest form. -/
def toBytes (instruction : Instruction) : List UInt8 :=
  instruction.source.getD instruction.canonical

@[simp] theorem opcode_withImmediate (instruction : Instruction) (immediate : Immediate) :
    (instruction.withImmediate immediate).opcode = instruction.opcode := by
  unfold withImmediate; split <;> rfl

@[simp] theorem immediate_withImmediate (instruction : Instruction) (immediate : Immediate) :
    (instruction.withImmediate immediate).immediate = immediate := by
  unfold withImmediate
  split
  · next h => exact h
  · rfl

@[simp] theorem mark_withImmediate (instruction : Instruction) (immediate : Immediate) :
    (instruction.withImmediate immediate).mark = instruction.mark := by
  unfold withImmediate; split <;> rfl

/-- An instruction that refers to a function refers to the one it is given. -/
theorem function?_withImmediate {instruction : Instruction} {index : UInt32}
    (h : instruction.function? = some index) (new : UInt32) :
    (instruction.withImmediate (.index new)).function? = some new := by
  unfold function? at h
  split at h
  · split at h
    · next hn => rw [function?, immediate_withImmediate, opcode_withImmediate]; simp [hn]
    · cases h
  · cases h

/-- The function of an instruction is mapped, where it has one. -/
theorem function?_mapFunction (f : UInt32 → UInt32) (instruction : Instruction) :
    (instruction.mapFunction f).function? = instruction.function?.map f := by
  unfold mapFunction
  split
  · next index h => rw [function?_withImmediate h, h, Option.map_some]
  · next h => rw [h, Option.map_none]

/-- Supplying the immediate that is there changes nothing, the encoding included. -/
theorem withImmediate_self (instruction : Instruction) :
    instruction.withImmediate instruction.immediate = instruction := by
  rw [withImmediate, if_pos rfl]

/-- Supplying another immediate has the instruction written canonically. -/
theorem toBytes_withImmediate_of_ne {instruction : Instruction} {immediate : Immediate}
    (h : instruction.immediate ≠ immediate) :
    (instruction.withImmediate immediate).toBytes =
      instruction.opcode.toBytes ++ immediate.toBytes := by
  rw [withImmediate, if_neg h]; rfl

end Instruction

end WasmMeter
