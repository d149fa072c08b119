import WasmMeter.Proofs.Disassembly.Sequence
import WasmMeter.Proofs.Reading.Operation

/-!
Edited sequences are read back. The bytes of an edited sequence mix sources with shortest encodings;
each is still read as the instruction it stands for, so reading the assembled bytes gives the edited
sequence again, every instruction with the bytes it was written as. Replacing functions changes no
nesting, and what is put in front moves the openers that stand behind it.
-/
namespace WasmMeter

open Reader

namespace Instruction

/-- The bytes that the instruction is written as are read as the instruction. -/
def Readable (instruction : Instruction) : Prop :=
  Reads Reader.instruction instruction.toBytes (instruction.opcode, instruction.immediate)

/-- The instruction, read from the bytes that it is written as. -/
def settle (instruction : Instruction) : Instruction :=
  { instruction with source := some instruction.toBytes }

/-- Once it is read from the bytes that it is written as, these are its source. -/
theorem Readable.settle {instruction : Instruction} (h : instruction.Readable) :
    instruction.settle.IsRead :=
  ⟨instruction.toBytes, rfl, h⟩

/-- An instruction without a source is written in its shortest form. -/
theorem readable_of_source_eq_none {instruction : Instruction} (hs : instruction.source = none)
    (h : Reads Reader.instruction instruction.canonical
      (instruction.opcode, instruction.immediate)) : instruction.Readable := by
  rwa [Readable, toBytes, hs, Option.getD_none]

/-- A new instruction is read back if its immediate fits its opcode. -/
theorem readable_new {opcode : Opcode} {immediate : Immediate} (h : opcode.Takes immediate) :
    (new opcode immediate).Readable :=
  readable_of_source_eq_none rfl (reads_operation h)

theorem readable_i32Const (value : Int32) : (i32Const value).Readable :=
  readable_new ⟨rfl, trivial⟩

theorem readable_call (function : UInt32) : (call function).Readable :=
  readable_new ⟨rfl, trivial⟩

/-- An immediate that is there already keeps the source; any other fits the opcode, or the result is not
read back. -/
theorem Readable.withImmediate {instruction : Instruction} {immediate : Immediate}
    (h : instruction.Readable) (htakes : instruction.opcode.Takes immediate) :
    (instruction.withImmediate immediate).Readable := by
  by_cases he : instruction.immediate = immediate
  · rwa [← he, withImmediate_self]
  · rw [Readable, toBytes_withImmediate_of_ne he, opcode_withImmediate, immediate_withImmediate]
    exact reads_operation htakes

/-- Only opcodes that take an index refer to functions. -/
theorem opcode_of_function? {instruction : Instruction} {function : UInt32}
    (h : instruction.function? = some function) :
    instruction.immediate = .index function ∧ instruction.opcode.shape? = some .index := by
  unfold function? at h
  split at h
  · next index hi =>
    split at h
    · next hn =>
      cases h
      refine ⟨hi, ?_⟩
      simp only [Opcode.namesFunction, Bool.or_eq_true, decide_eq_true_eq] at hn
      rcases hn with (hn | hn) | hn <;> rw [hn] <;> rfl
    · cases h
  · cases h

/-- Another function is an index again, so the instruction is read back. -/
theorem readable_mapFunction {instruction : Instruction} (f : UInt32 → UInt32)
    (h : instruction.Readable) : (instruction.mapFunction f).Readable := by
  unfold mapFunction
  split
  · next function hf => exact h.withImmediate ⟨(opcode_of_function? hf).2, trivial⟩
  · exact h

/-- A reference does not play a part in the nesting, whichever function it is to. -/
theorem step_mapFunction (f : UInt32 → UInt32) (instruction : Instruction) (blocks : Nesting)
    (position : Nat) :
    (instruction.mapFunction f).step blocks position = instruction.step blocks position := by
  unfold mapFunction
  split
  · next function hf =>
    obtain ⟨hi, -⟩ := opcode_of_function? hf
    rw [step, step, opcode_withImmediate, immediate_withImmediate, hi]
    rfl
  · rfl

theorem mark_mapFunction (f : UInt32 → UInt32) (instruction : Instruction) :
    (instruction.mapFunction f).mark = instruction.mark := by
  unfold mapFunction
  split
  · exact mark_withImmediate _ _
  · rfl

end Instruction

/-! ### Moving positions -/

/-- The mark, a number of instructions further on. -/
def BlockMark.move (distance : Nat) (mark : BlockMark) : BlockMark :=
  { mark with opener := mark.opener.map (· + distance) }

def OpenBlock.move (distance : Nat) (block : OpenBlock) : OpenBlock :=
  { block with opener := block.opener + distance }

namespace Nesting

/-- The step, a number of instructions further on. -/
def Step.move (distance : Nat) : Step → Step
  | .inside mark blocks =>
      .inside (mark.map (BlockMark.move distance)) (blocks.map (OpenBlock.move distance))
  | .closed mark => .closed (mark.move distance)
  | .unmatched => .unmatched

/-- Moving blocks does not nest them deeper. -/
theorem depth_map_move (distance : Nat) (blocks : Nesting) :
    depth (blocks.map (OpenBlock.move distance)) = depth blocks := by
  cases blocks <;> rfl

/-- Blocks are opened and closed by the same instructions wherever the sequence begins. -/
theorem step_move (distance : Nat) (blocks : Nesting) (position : Nat) (role : Option BlockRole)
    (type : BlockType) :
    step (blocks.map (OpenBlock.move distance)) (position + distance) role type =
      (step blocks position role type).move distance := by
  cases role with
  | none => rfl
  | some role =>
      cases role with
      | block | loop | ifBlock =>
          simp only [step, push, depth_map_move]
          rfl
      | elseArm =>
          cases blocks with
          | nil => rfl
          | cons top outer =>
              simp only [step, List.map_cons, OpenBlock.move]
              split <;> rfl
      | ending => cases blocks <;> rfl

/-- Instructions of which neither the step nor the mark changes close the same blocks. -/
theorem Closes.map {blocks : Nesting} {position : Nat} {instructions : List Instruction}
    (h : Closes blocks position instructions) {change : Instruction → Instruction}
    (hstep : ∀ i blocks position, (change i).step blocks position = i.step blocks position)
    (hmark : ∀ i, (change i).mark = i.mark) : Closes blocks position (instructions.map change) := by
  induction h with
  | last closed marked => exact .last (by rw [hstep, closed]) (by rw [hmark, marked])
  | cons inside closes ih => exact .cons (by rw [hstep, hmark, inside]) ih

/-- Moved instructions close the moved blocks. -/
theorem Closes.move {blocks : Nesting} {position : Nat} {instructions : List Instruction}
    (h : Closes blocks position instructions) (distance : Nat) :
    Closes (blocks.map (OpenBlock.move distance)) (position + distance)
      (instructions.map (Disassembly.moveOpener distance)) := by
  induction h with
  | @last blocks position instruction mark closed marked =>
      have hmoved : (Disassembly.moveOpener distance instruction).step
          (blocks.map (OpenBlock.move distance)) (position + distance) =
            .closed (mark.move distance) := by
        have hstep := step_move distance blocks position instruction.opcode.role?
          instruction.immediate.blockType
        rw [Instruction.step] at closed
        rwa [closed] at hstep
      refine .last hmoved ?_
      simp only [Disassembly.moveOpener, marked]
      rfl
  | @cons blocks inner position instruction rest inside closes ih =>
      rw [Nat.add_right_comm] at ih
      refine .cons ?_ ih
      have hstep := step_move distance blocks position instruction.opcode.role?
        instruction.immediate.blockType
      rw [Instruction.step] at inside
      rwa [inside] at hstep

/-- Instructions without a part in the nesting may stand in front. -/
theorem Closes.append {blocks : Nesting} {position : Nat} {front instructions : List Instruction}
    (hfront : ∀ i ∈ front, i.opcode.role? = none ∧ i.mark = none)
    (h : Closes blocks (position + front.length) instructions) :
    Closes blocks position (front ++ instructions) := by
  induction front generalizing position with
  | nil => exact h
  | cons i front ih =>
      obtain ⟨hrole, hmark⟩ := hfront i (by simp)
      refine .cons ?_ (ih (fun j hj => hfront j (by simp [hj])) ?_)
      · rw [Instruction.step, hrole, hmark]
        rfl
      · rwa [List.length_cons, Nat.add_comm front.length, ← Nat.add_assoc] at h

end Nesting

namespace Disassembly

/-- The bytes that the sequence is assembled to are read as the sequence. -/
structure Readable (d : Disassembly) : Prop where
  closes : Nesting.Closes [] 0 d.instructions
  instructions : ∀ instruction ∈ d.instructions, instruction.Readable

/-- The sequence, read from the bytes that it is assembled to. -/
def settle (d : Disassembly) : Disassembly := ⟨d.instructions.map Instruction.settle⟩

/-- What was read is written as it was read. -/
theorem IsRead.readable {d : Disassembly} (h : d.IsRead) : d.Readable :=
  ⟨h.closes, fun instruction hi => (h.instructions instruction hi).reads⟩

/-- To take the written bytes for sources writes nothing else. -/
theorem assemble_settle (d : Disassembly) : d.settle.assemble = d.assemble := by
  rw [assemble, settle, List.flatMap_map]
  rfl

/-- A readable sequence is read back from its bytes, at every offset. -/
theorem Readable.ofBytesAt_assemble {d : Disassembly} (h : d.Readable) (base : Nat) :
    ofBytesAt base d.assemble = .ok d.settle := by
  refine ofBytesAt_eq_ok_iff.2 ⟨⟨?_, ?_⟩, assemble_settle d⟩
  · exact h.closes.map (fun _ _ _ => rfl) fun _ => rfl
  · intro instruction hi
    obtain ⟨i, hm, rfl⟩ := List.mem_map.1 hi
    exact (h.instructions i hm).settle

/-- Replacing functions leaves the nesting, and every instruction is still read back. -/
theorem Readable.mapReferences {d : Disassembly} (h : d.Readable) (f : UInt32 → UInt32) :
    (d.mapReferences f).Readable := by
  refine ⟨h.closes.map (Instruction.step_mapFunction f) (Instruction.mark_mapFunction f), ?_⟩
  intro instruction hi
  obtain ⟨i, hm, rfl⟩ := List.mem_map.1 hi
  exact Instruction.readable_mapFunction f (h.instructions i hm)

/-- New instructions in front have no part in the nesting, and the openers behind them move by their
number. -/
theorem Readable.prepend {d : Disassembly} (h : d.Readable) {front : List Instruction}
    (hfront : ∀ i ∈ front, i.opcode.role? = none ∧ i.mark = none)
    (hread : ∀ i ∈ front, i.Readable) : (d.prepend front).Readable := by
  refine ⟨Nesting.Closes.append hfront (h.closes.move front.length), ?_⟩
  intro instruction hi
  rcases List.mem_append.1 hi with hi | hi
  · exact hread instruction hi
  · obtain ⟨i, hm, rfl⟩ := List.mem_map.1 hi
    exact h.instructions i hm

end Disassembly

end WasmMeter
