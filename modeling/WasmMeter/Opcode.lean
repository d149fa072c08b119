/-!
Opcodes: one byte, or a prefix byte and a number. The tables say for every known opcode what it is
called and which shape its immediate has.
-/
namespace WasmMeter

/-- The shapes that the immediate of an instruction can have. -/
inductive Shape where
  | empty
  | block
  | index
  | branchTable
  | indirectCall
  | memory
  | i32
  | i64
  | f32
  | f64
  | valueTypes
  | heapType
  | indexPair
deriving DecidableEq, Repr

/-- Opcodes that follow one another and take immediates of one shape. -/
structure OpcodeRun where
  first : Nat
  shape : Shape
  names : List String

namespace OpcodeRun

/-- The name and the shape of the opcode with this number, if it belongs to the run. -/
def lookup? (run : OpcodeRun) (number : Nat) : Option (String × Shape) :=
  if number < run.first then none
  else run.names[number - run.first]?.map (·, run.shape)

/-- The opcodes of a single byte. -/
def plain : List OpcodeRun := [
  ⟨0x00, .empty, ["unreachable", "nop"]⟩,
  ⟨0x02, .block, ["block", "loop", "if"]⟩,
  ⟨0x05, .empty, ["else"]⟩,
  ⟨0x0b, .empty, ["end"]⟩,
  ⟨0x0c, .index, ["br", "br_if"]⟩,
  ⟨0x0e, .branchTable, ["br_table"]⟩,
  ⟨0x0f, .empty, ["return"]⟩,
  ⟨0x10, .index, ["call"]⟩,
  ⟨0x11, .indirectCall, ["call_indirect"]⟩,
  ⟨0x12, .index, ["return_call"]⟩,
  ⟨0x13, .indirectCall, ["return_call_indirect"]⟩,
  ⟨0x1a, .empty, ["drop", "select"]⟩,
  ⟨0x1c, .valueTypes, ["select"]⟩,
  ⟨0x20, .index, [
    "local.get", "local.set", "local.tee", "global.get", "global.set", "table.get", "table.set"]⟩,
  ⟨0x28, .memory, [
    "i32.load", "i64.load", "f32.load", "f64.load", "i32.load8_s", "i32.load8_u", "i32.load16_s",
    "i32.load16_u", "i64.load8_s", "i64.load8_u", "i64.load16_s", "i64.load16_u", "i64.load32_s",
    "i64.load32_u", "i32.store", "i64.store", "f32.store", "f64.store", "i32.store8", "i32.store16",
    "i64.store8", "i64.store16", "i64.store32"]⟩,
  ⟨0x3f, .index, ["memory.size", "memory.grow"]⟩,
  ⟨0x41, .i32, ["i32.const"]⟩,
  ⟨0x42, .i64, ["i64.const"]⟩,
  ⟨0x43, .f32, ["f32.const"]⟩,
  ⟨0x44, .f64, ["f64.const"]⟩,
  ⟨0x45, .empty, [
    "i32.eqz", "i32.eq", "i32.ne", "i32.lt_s", "i32.lt_u", "i32.gt_s", "i32.gt_u", "i32.le_s",
    "i32.le_u", "i32.ge_s", "i32.ge_u", "i64.eqz", "i64.eq", "i64.ne", "i64.lt_s", "i64.lt_u",
    "i64.gt_s", "i64.gt_u", "i64.le_s", "i64.le_u", "i64.ge_s", "i64.ge_u", "f32.eq", "f32.ne",
    "f32.lt", "f32.gt", "f32.le", "f32.ge", "f64.eq", "f64.ne", "f64.lt", "f64.gt", "f64.le",
    "f64.ge", "i32.clz", "i32.ctz", "i32.popcnt", "i32.add", "i32.sub", "i32.mul", "i32.div_s",
    "i32.div_u", "i32.rem_s", "i32.rem_u", "i32.and", "i32.or", "i32.xor", "i32.shl", "i32.shr_s",
    "i32.shr_u", "i32.rotl", "i32.rotr", "i64.clz", "i64.ctz", "i64.popcnt", "i64.add", "i64.sub",
    "i64.mul", "i64.div_s", "i64.div_u", "i64.rem_s", "i64.rem_u", "i64.and", "i64.or", "i64.xor",
    "i64.shl", "i64.shr_s", "i64.shr_u", "i64.rotl", "i64.rotr", "f32.abs", "f32.neg", "f32.ceil",
    "f32.floor", "f32.trunc", "f32.nearest", "f32.sqrt", "f32.add", "f32.sub", "f32.mul", "f32.div",
    "f32.min", "f32.max", "f32.copysign", "f64.abs", "f64.neg", "f64.ceil", "f64.floor",
    "f64.trunc", "f64.nearest", "f64.sqrt", "f64.add", "f64.sub", "f64.mul", "f64.div", "f64.min",
    "f64.max", "f64.copysign", "i32.wrap_i64", "i32.trunc_f32_s", "i32.trunc_f32_u",
    "i32.trunc_f64_s", "i32.trunc_f64_u", "i64.extend_i32_s", "i64.extend_i32_u", "i64.trunc_f32_s",
    "i64.trunc_f32_u", "i64.trunc_f64_s", "i64.trunc_f64_u", "f32.convert_i32_s",
    "f32.convert_i32_u", "f32.convert_i64_s", "f32.convert_i64_u", "f32.demote_f64",
    "f64.convert_i32_s", "f64.convert_i32_u", "f64.convert_i64_s", "f64.convert_i64_u",
    "f64.promote_f32", "i32.reinterpret_f32", "i64.reinterpret_f64", "f32.reinterpret_i32",
    "f64.reinterpret_i64", "i32.extend8_s", "i32.extend16_s", "i64.extend8_s", "i64.extend16_s",
    "i64.extend32_s"]⟩,
  ⟨0xd0, .heapType, ["ref.null"]⟩,
  ⟨0xd1, .empty, ["ref.is_null"]⟩,
  ⟨0xd2, .index, ["ref.func"]⟩]

/-- The opcodes behind the prefix `0xfc`, by the number that follows it. -/
def prefixed : List OpcodeRun := [
  ⟨0, .empty, [
    "i32.trunc_sat_f32_s", "i32.trunc_sat_f32_u", "i32.trunc_sat_f64_s", "i32.trunc_sat_f64_u",
    "i64.trunc_sat_f32_s", "i64.trunc_sat_f32_u", "i64.trunc_sat_f64_s", "i64.trunc_sat_f64_u"]⟩,
  ⟨8, .indexPair, ["memory.init"]⟩,
  ⟨9, .index, ["data.drop"]⟩,
  ⟨10, .indexPair, ["memory.copy"]⟩,
  ⟨11, .index, ["memory.fill"]⟩,
  ⟨12, .indexPair, ["table.init"]⟩,
  ⟨13, .index, ["elem.drop"]⟩,
  ⟨14, .indexPair, ["table.copy"]⟩,
  ⟨15, .index, ["table.grow", "table.size", "table.fill"]⟩]

end OpcodeRun

/-- An opcode, known or not. -/
inductive Opcode where
  | plain (byte : UInt8)
  | prefixed (byte : UInt8) (sub : UInt32)
deriving DecidableEq, Repr

namespace Opcode

/-- The byte after which the opcode goes on with a number. -/
def prefixByte : UInt8 := 0xfc

/-- Name and shape of a known opcode. -/
def lookup? : Opcode → Option (String × Shape)
  | plain byte => OpcodeRun.plain.findSome? (·.lookup? byte.toNat)
  | prefixed byte sub =>
      if byte = prefixByte then OpcodeRun.prefixed.findSome? (·.lookup? sub.toNat) else none

def name (opcode : Opcode) : String := (opcode.lookup?.map (·.1)).getD "<unknown>"

def shape? (opcode : Opcode) : Option Shape := opcode.lookup?.map (·.2)

/-- The first byte. -/
def byte : Opcode → UInt8
  | plain byte => byte
  | prefixed byte _ => byte

/-- The number behind the first byte, if the opcode has one. -/
def sub? : Opcode → Option UInt32
  | plain _ => none
  | prefixed _ sub => some sub

abbrev block : Opcode := plain 0x02
abbrev loop : Opcode := plain 0x03
abbrev ifBlock : Opcode := plain 0x04
abbrev elseArm : Opcode := plain 0x05
abbrev ending : Opcode := plain 0x0b
abbrev call : Opcode := plain 0x10
abbrev returnCall : Opcode := plain 0x12
abbrev i32Const : Opcode := plain 0x41
abbrev refFunc : Opcode := plain 0xd2

/-- Does the immediate of this opcode name a function? -/
def namesFunction (opcode : Opcode) : Bool :=
  opcode = call || opcode = returnCall || opcode = refFunc

end Opcode

end WasmMeter
