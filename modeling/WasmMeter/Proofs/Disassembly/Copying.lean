import WasmMeter.Proofs.Disassembly.Edits
import WasmMeter.Proofs.Disassembly.Grammar

/-!
What assembly copies. The sources of the instructions that were read lie side by side in the code, from
its first byte to its last. Edits do not touch the code: an instruction goes on to be written as its part
of it for as long as every immediate that it is given is the one that it has.
-/
namespace WasmMeter

open Reader Edit

/-- The instructions are read one behind another, from one cursor up to the other. The source of each is
all that lies between the cursor in front of it and the one behind it. -/
inductive Tiled : Cursor → List Instruction → Cursor → Prop where
  | nil {c : Cursor} : Tiled c [] c
  | cons {c d e : Cursor} {instruction : Instruction} {rest : List Instruction}
      (read : Reader.instruction c = .ok instruction.operation d)
      (source : instruction.source = some (c.unread.take (d.position - c.position)))
      (tiled : Tiled d rest e) : Tiled c (instruction :: rest) e

/-- Sources that are written one behind another are cut at the same places when they are read. The
induction is on the instructions, each from where the one in front ends. -/
theorem tiled_of_isRead {instructions : List Instruction} (h : ∀ i ∈ instructions, i.IsRead)
    (rest : List UInt8) (place : Nat) :
    Tiled ⟨instructions.flatMap Instruction.toBytes ++ rest, place⟩ instructions
      ⟨rest, place + (instructions.flatMap Instruction.toBytes).length⟩ := by
  induction instructions generalizing place with
  | nil => exact .nil
  | cons i instructions ih =>
      obtain ⟨hfirst, hrest⟩ := List.forall_mem_cons.1 h
      have htiled := ih hrest (place + i.toBytes.length)
      rw [List.flatMap_cons, List.append_assoc, List.length_append, ← Nat.add_assoc]
      refine .cons (hfirst.reads _ place) ?_ htiled
      rw [hfirst.source_eq, Nat.add_sub_cancel_left, List.take_left]

namespace Disassembly

variable {d : Disassembly} {edits : List Edit} {position : Nat} {instruction : Instruction}

/-- What was read is tiled by its sources, and these are all that was taken. -/
theorem tiled_of_read {c e : Cursor} (h : read c = .ok d e) :
    Tiled c d.instructions e ∧ c.unread = d.assemble ++ e.unread := by
  obtain ⟨hd, hunread⟩ := read_eq_ok h
  refine ⟨?_, hunread⟩
  obtain ⟨unread, place⟩ := c
  change unread = d.assemble ++ e.unread at hunread
  have hread := hd.reads e.unread place
  rw [hunread] at h ⊢
  rw [h, EStateM.Result.ok.injEq] at hread
  rw [hread.2]
  exact tiled_of_isRead hd.instructions e.unread place

/-- The bytes that an instruction of the edited sequence has kept: it stood in the sequence before the
edits, and whenever one of them supplied an immediate to it, that was the one that it had. -/
def kept? (d : Disassembly) (edits : List Edit) (position : Nat) : Option (List UInt8) :=
  if position < inserted edits then none
  else
    let place := position - inserted edits
    d.instructions[place]?.bind fun instruction =>
      if (instruction.immediate :: supplied edits place).IsChain (· = ·) then instruction.source
      else none

/-- Edits only add instructions, in front of the old ones. -/
theorem length_edit (d : Disassembly) (edits : List Edit) :
    (d.edit edits).instructions.length = inserted edits + d.instructions.length := by
  obtain ⟨front, hlength, -, hinstructions⟩ := d.exists_instructions_edit edits
  rw [hinstructions, List.length_append, List.length_mapIdx, hlength]

/-- The source of an instruction after the edits is what it has kept of its bytes through all of them. -/
theorem source_edit (h : (d.edit edits).instructions[position]? = some instruction) :
    instruction.source = d.kept? edits position := by
  obtain ⟨front, hlength, hfront, hinstructions⟩ := d.exists_instructions_edit edits
  rw [hinstructions] at h
  unfold kept?
  by_cases hlt : position < inserted edits
  · rw [if_pos hlt]
    rw [List.getElem?_append_left (hlength ▸ hlt)] at h
    exact (hfront instruction (List.mem_of_getElem? h)).source
  · rw [if_neg hlt]
    rw [List.getElem?_append_right (hlength ▸ Nat.not_lt.1 hlt), hlength, List.getElem?_mapIdx] at h
    obtain ⟨old, hold, rfl⟩ := Option.map_eq_some_iff.1 h
    dsimp only
    rw [hold]
    exact old.source_revise _

/-- Each instruction is a copy of its old bytes, or is written in its shortest form. -/
theorem assemble_edit (d : Disassembly) (edits : List Edit) :
    (d.edit edits).assemble = ((d.edit edits).instructions.mapIdx fun position instruction =>
      (d.kept? edits position).getD instruction.canonical).flatten := by
  rw [assemble, List.flatMap_def]
  congr 1
  refine List.ext_getElem? fun position => ?_
  rw [List.getElem?_map, List.getElem?_mapIdx]
  cases h : (d.edit edits).instructions[position]? with
  | none => rfl
  | some instruction => rw [Option.map_some, Option.map_some, ← source_edit h, Instruction.toBytes]

/-- To supply the immediate that is there already changes nothing. -/
theorem setImmediate_self (h : d.instructions[position]? = some instruction) :
    d.setImmediate position instruction.immediate = d := by
  refine congrArg Disassembly.mk (List.ext_getElem? fun place => ?_)
  show (d.setImmediate position instruction.immediate).instructions[place]? = d.instructions[place]?
  rw [getElem?_setImmediate]
  cases hplace : d.instructions[place]? with
  | none => rfl
  | some other =>
      by_cases hp : position = place
      · subst hp
        cases hplace.symm.trans h
        rw [Option.map_some, if_pos rfl, Instruction.withImmediate_self]
      · rw [Option.map_some, if_neg hp]

/-- To supply the immediate that is there is no edit. -/
theorem edit_append_set (h : (d.edit edits).instructions[position]? = some instruction) :
    d.edit (edits ++ [.set position instruction.immediate]) = d.edit edits := by
  rw [edit, List.foldl_append]
  exact setImmediate_self h

/-- Assembly copies what was not changed. Wherever a sequence is read, its instructions are read one
behind another and their sources are the code, so without edits the code is assembled again. After any
edits, each instruction is written as the bytes that it has kept, and as its shortest encoding if it was
put in front or was once given another immediate. To give an instruction the immediate that it has
changes nothing. -/
theorem assemble_copies :
    (∀ c e d, read c = .ok d e → Tiled c d.instructions e ∧ c.unread = d.assemble ++ e.unread) ∧
    ∀ base code d, ofBytesAt base code = .ok d →
      Tiled ⟨code, base⟩ d.instructions ⟨[], base + code.length⟩ ∧ d.assemble = code ∧
      ∀ edits,
        (d.edit edits).instructions.length = inserted edits + d.instructions.length ∧
        (d.edit edits).assemble = ((d.edit edits).instructions.mapIdx fun position instruction =>
          (d.kept? edits position).getD instruction.canonical).flatten ∧
        ∀ position instruction, (d.edit edits).instructions[position]? = some instruction →
          d.edit (edits ++ [.set position instruction.immediate]) = d.edit edits := by
  refine ⟨fun c e d => tiled_of_read, fun base code d h => ?_⟩
  obtain ⟨hread, hcode⟩ := ofBytesAt_eq_ok_iff.1 h
  have htiled := tiled_of_isRead hread.instructions [] base
  rw [List.append_nil] at htiled
  refine ⟨hcode ▸ htiled, hcode, fun edits => ?_⟩
  exact ⟨length_edit d edits, assemble_edit d edits, fun _ _ => edit_append_set⟩

/-- Two instructions whose immediates are not in their shortest form, and the end of a body. -/
def padded : List UInt8 := [0x41, 0x80, 0x00, 0x10, 0x81, 0x00, 0x0b]

/-- The constant is given the immediate that it has, and the call another one, behind a new constant. -/
def paddedEdits : List Edit :=
  [.prepend [(.i32Const, .i32 5)], .set 1 (.i32 0), .set 2 (.index 7)]

theorem assemble_copies_padded :
    ∃ d, ofBytesAt 3 padded = .ok d ∧ Tiled ⟨padded, 3⟩ d.instructions ⟨[], 10⟩ ∧
      d.assemble = padded ∧
      (d.edit paddedEdits).assemble = [0x41, 0x05, 0x41, 0x80, 0x00, 0x10, 0x07, 0x0b] := by
  let d : Disassembly := ⟨[
    ⟨.i32Const, .i32 0, none, some [0x41, 0x80, 0x00]⟩,
    ⟨.call, .index 1, none, some [0x10, 0x81, 0x00]⟩,
    ⟨.ending, .empty, some Nesting.bodyEnd, some [0x0b]⟩]⟩
  have hd : ofBytesAt 3 padded = .ok d := by decide +kernel
  obtain ⟨htiled, hcode, hedits⟩ := assemble_copies.2 3 padded d hd
  refine ⟨d, hd, htiled, hcode, ?_⟩
  rw [(hedits paddedEdits).2.1]
  decide +kernel

end Disassembly

end WasmMeter
