import WasmMeter.Instruction.Read
import WasmMeter.Nesting

/-!
Instruction sequences: the code of a function or a constant expression, up to the terminator that
closes it. A sequence knows where its blocks begin and end, and assembling one that was not changed
gives back the bytes it was read from.
-/
namespace WasmMeter

/-- The instructions of a body, the last of which closes it. -/
structure Disassembly where
  instructions : List Instruction
deriving DecidableEq, Repr

namespace Disassembly

/-- A sequence that is being read: the instructions so far, last one first, how many they are, and
the blocks that are open. -/
structure Progress where
  done : List Instruction
  count : Nat
  blocks : Nesting
deriving DecidableEq, Repr

/-- Reads one more instruction; the one that closes the body completes the sequence. -/
def Progress.next (p : Progress) : Reader (Progress ⊕ Disassembly) := do
  let start ← Reader.position
  let ((opcode, immediate), source) ←
    Reader.withSource (Reader.mapEnd .truncatedBody Reader.instruction)
  match p.blocks.step p.count opcode.role? immediate.blockType with
  | .inside mark blocks =>
      return .inl ⟨⟨opcode, immediate, mark, some source⟩ :: p.done, p.count + 1, blocks⟩
  | .closed mark =>
      return .inr ⟨(⟨opcode, immediate, some mark, some source⟩ :: p.done).reverse⟩
  | .unmatched => throw (.unmatchedBlockEnd start)

/-- Reads up to the terminator that closes the body. -/
def read : Reader Disassembly :=
  Reader.whileUnread Progress.next (fun _ => do throw (.truncatedBody (← Reader.position)))
    ⟨[], 0, []⟩

/-- Refuses bytes behind the end of the body. -/
def checkEnd : Reader Unit := do
  let start ← Reader.position
  match ← Reader.peek? with
  | none => return
  | some next =>
      if Opcode.plain next = .elseArm ∨ Opcode.plain next = .ending then
        throw (.unmatchedBlockEnd start)
      else throw (.trailingCode start)

/-- The sequence that some bytes hold and nothing else; `base` is the offset of the first byte. -/
def ofBytesAt (base : Nat) (code : List UInt8) : Except Error Disassembly :=
  Reader.answer (do let d ← read; checkEnd; return d) ⟨code, base⟩

def ofBytes (code : List UInt8) : Except Error Disassembly := ofBytesAt 0 code

/-- The bytes of the instructions, one after another. -/
def assemble (d : Disassembly) : List UInt8 := d.instructions.flatMap Instruction.toBytes

/-- Replaces the immediate of the instruction at a position, if there is one. -/
def setImmediate (d : Disassembly) (position : Nat) (immediate : Immediate) : Disassembly :=
  ⟨d.instructions.modify position (·.withImmediate immediate)⟩

/-- Moves the opener that an instruction refers to, if it does. -/
def moveOpener (distance : Nat) (instruction : Instruction) : Instruction :=
  { instruction with
    mark := instruction.mark.map fun mark => { mark with opener := mark.opener.map (· + distance) } }

/-- Puts instructions in front of all others. They stand at depth zero, and every later opener moves
back by their number. -/
def prepend (d : Disassembly) (prologue : List Instruction) : Disassembly :=
  ⟨prologue ++ d.instructions.map (moveOpener prologue.length)⟩

/-- The indices of functions that the instructions refer to, in order. -/
def references (d : Disassembly) : List UInt32 := d.instructions.filterMap Instruction.function?

/-- Replaces every index of a function that an instruction refers to. -/
def mapReferences (f : UInt32 → UInt32) (d : Disassembly) : Disassembly :=
  ⟨d.instructions.map (Instruction.mapFunction f)⟩

theorem toBytes_moveOpener (distance : Nat) (instruction : Instruction) :
    (moveOpener distance instruction).toBytes = instruction.toBytes := rfl

/-- Moving openers does not show in the bytes. -/
theorem assemble_prepend (d : Disassembly) (prologue : List Instruction) :
    (d.prepend prologue).assemble = prologue.flatMap Instruction.toBytes ++ d.assemble := by
  simp only [assemble, prepend, List.flatMap_append, List.flatMap_map, toBytes_moveOpener]

/-- The functions named afterwards are the mapped ones, in order. -/
theorem references_mapReferences (f : UInt32 → UInt32) (d : Disassembly) :
    (d.mapReferences f).references = d.references.map f := by
  simp only [references, mapReferences, List.filterMap_map, List.map_filterMap]
  congr 1
  funext instruction
  exact Instruction.function?_mapFunction f instruction

end Disassembly

end WasmMeter
