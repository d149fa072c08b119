import WasmMeter.Decimal.FloatingPoint
import WasmMeter.Instruction

/-!
Instructions as text: the name, then the immediates separated by spaces.
-/
namespace WasmMeter

/-- Words with a space in front of each. -/
def spaced (words : List String) : String := String.join (words.map (" " ++ ·))

/-- A result type between parentheses. -/
def ValueType.resultText (type : ValueType) : String := s!"(result {type.name})"

def BlockType.words : BlockType → List String
  | .empty => []
  | .value type => [type.resultText]
  | .typeIndex i => [s!"(type {i.toNat})"]

/-- An alignment as a number of bytes; only the low six bits of the field count. -/
def Immediate.alignment (align : UInt32) : Nat := 1 <<< (align.toNat % 64)

def Immediate.words : Immediate → List String
  | .empty => []
  | .block type => type.words
  | .index i => [toString i.toNat]
  | .branchTable targets default => (targets ++ [default]).map fun label => toString label.toNat
  | .indirectCall typeIndex table => [toString table.toNat, s!"(type {typeIndex.toNat})"]
  | .memory align _ offset => [s!"offset={offset.toNat}", s!"align={alignment align}"]
  | .i32 value => [toString value.toInt]
  | .i64 value => [toString value.toInt]
  | .f32 bits => [FloatFormat.single.text bits.toNat]
  | .f64 bits => [FloatFormat.double.text bits.toNat]
  | .valueTypes types => types.map ValueType.resultText
  | .heapType type => [type.name]
  | .indexPair first second => [toString first.toNat, toString second.toNat]

def Instruction.text (instruction : Instruction) : String :=
  instruction.opcode.name ++ spaced instruction.immediate.words

end WasmMeter
