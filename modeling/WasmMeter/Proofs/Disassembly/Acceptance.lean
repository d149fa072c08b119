import WasmMeter.Proofs.Disassembly.Parsing
import WasmMeter.Proofs.Reading.Operation

/-!
Which bytes are read as a sequence of instructions: those that the instruction reader splits into a
word of the grammar of nested blocks. The sequence then carries the marks of the syntax tree, and goes
on to carry them when instructions are put in front.
-/
namespace WasmMeter

/-! ### Splitting bytes into instructions -/

namespace Reader

/-- Run again and again, the reader answers these values in turn, and the last of them ends where the
bytes end. -/
inductive Splits {α : Type} (r : Reader α) : Cursor → List α → Prop where
  | nil {position : Nat} : Splits r ⟨[], position⟩ []
  | cons {c d : Cursor} {a : α} {rest : List α} (first : r c = .ok a d) (more : Splits r d rest) :
      Splits r c (a :: rest)

end Reader

open Reader Instruction

/-- An immediate that was read has the shape that its opcode asks for. -/
theorem Instruction.IsRead.isShaped {instruction : Instruction} (h : instruction.IsRead) :
    instruction.IsShaped := by
  obtain ⟨n, -, htakes, -⟩ := yields_instruction _ _ _ (h.reads [] 0)
  exact htakes.shape

/-- Instructions that were read are split from their bytes again, with nothing left. -/
theorem splits_of_isRead {instructions : List Instruction} (h : ∀ i ∈ instructions, i.IsRead)
    (position : Nat) : Splits Reader.instruction
      ⟨instructions.flatMap Instruction.toBytes, position⟩ (instructions.map operation) := by
  induction instructions generalizing position with
  | nil => exact .nil
  | cons i rest ih =>
      obtain ⟨hfirst, hrest⟩ := List.forall_mem_cons.1 h
      exact .cons (hfirst.reads _ position) (ih hrest _)

/-- Whatever the bytes are split into is read from its own part of them, so instructions with any
marks can be given these parts for their sources. -/
theorem exists_isRead_of_splits {c : Cursor} {operations : List (Opcode × Immediate)}
    (h : Splits Reader.instruction c operations) {instructions : List Instruction}
    (hi : instructions.map operation = operations) :
    ∃ read : List Instruction, read.map bare = instructions.map bare ∧
      (∀ i ∈ read, i.IsRead) ∧ read.flatMap Instruction.toBytes = c.unread := by
  induction h generalizing instructions with
  | nil =>
      obtain rfl := List.map_eq_nil_iff.1 hi
      exact ⟨[], rfl, List.forall_mem_nil _, rfl⟩
  | @cons c d a rest first more ih =>
      obtain ⟨i, behind, rfl, rfl, hbehind⟩ := List.map_eq_cons_iff.1 hi
      obtain ⟨read, hbare, hread, hunread⟩ := ih hbehind
      obtain ⟨bytes, hu, hb⟩ := selfDelimiting_instruction.reads uniform_instruction first
      refine ⟨{ i with source := some bytes } :: read, ?_, ?_, ?_⟩
      · rw [List.map_cons, hbare]
        rfl
      · exact List.forall_mem_cons.2 ⟨⟨bytes, rfl, hb⟩, hread⟩
      · rw [List.flatMap_cons, hunread, hu]
        rfl

/-! ### Reading and the grammar -/

namespace Disassembly

/-- Apart from the bytes they were read from, the instructions are the body of a syntax tree, marked
as the tree asks. -/
def IsBody (d : Disassembly) (items : Items) : Prop := d.instructions.map bare = items.body

/-- The marks of a sequence that is read are those of a syntax tree, and no others are. -/
theorem isRead_iff {d : Disassembly} :
    d.IsRead ↔ (∃ items, d.IsBody items) ∧ ∀ i ∈ d.instructions, i.IsRead := by
  constructor
  · intro h
    exact ⟨h.closes.exists_body fun i hi => (h.instructions i hi).isShaped, h.instructions⟩
  · rintro ⟨⟨items, hbody⟩, hread⟩
    refine ⟨Nesting.closes_map_bare_iff.1 ?_, hread⟩
    rw [hbody]
    exact Nesting.closes_body items

/-- Its instructions spell the word of the tree. -/
theorem IsBody.map_operation {d : Disassembly} {items : Items} (h : d.IsBody items) :
    d.instructions.map operation = items.bodyWord := by
  rw [← items.map_operation_body, ← h, List.map_map]
  rfl

end Disassembly

namespace Disassembly

variable {d : Disassembly} {items : Items} {front : List Instruction}

/-- What is put in front of a body without a part in the nesting is in front of its items. -/
theorem IsBody.prepend (h : d.IsBody items)
    (hfront : ∀ i ∈ front, i.opcode.role? = none ∧ i.mark = none) :
    ∃ all : Items, all.word = front.map operation ++ items.word ∧ (d.prepend front).IsBody all := by
  obtain ⟨all, hword, hall⟩ := items.exists_behind hfront
  refine ⟨all, hword, ?_⟩
  have hmoved : (d.instructions.map (moveOpener front.length)).map bare =
      (d.instructions.map bare).map (moveOpener front.length) := by
    rw [List.map_map, List.map_map]
    rfl
  rw [IsBody] at h
  rw [IsBody, Disassembly.prepend, List.map_append, hmoved, h, Items.body, Items.body, hall,
    Nat.zero_add, List.map_append, ← Items.instructions_add, Nat.zero_add, List.append_assoc]
  rfl

/-- Whatever is put in front, again and again, is a row of plain items in front of the tree. -/
theorem IsBody.foldl_prepend (h : d.IsBody items) {fronts : List (List Instruction)}
    (hfronts : ∀ front ∈ fronts, ∀ i ∈ front, i.opcode.role? = none ∧ i.mark = none) :
    ∃ all : Items, all.word = fronts.reverse.flatten.map operation ++ items.word ∧
      (fronts.foldl Disassembly.prepend d).IsBody all := by
  induction fronts generalizing d items with
  | nil => exact ⟨items, rfl, h⟩
  | cons front fronts ih =>
      obtain ⟨hfront, hrest⟩ := List.forall_mem_cons.1 hfronts
      obtain ⟨middle, hmiddle, hbody⟩ := h.prepend hfront
      obtain ⟨all, hall, hbody⟩ := ih hbody hrest
      refine ⟨all, ?_, hbody⟩
      rw [hall, hmiddle, List.reverse_cons, List.flatten_concat, List.map_append,
        List.append_assoc]

/-- Bytes are read as a sequence exactly if the instruction reader splits them into a word of the
grammar, at whatever offset they stand. The instructions are then marked as the syntax tree asks: what
opens a construct is one deeper than the constructs around it and has its own type; a second arm and
a terminator have the depth and the type of their construct and the position of what opened it; the
last terminator is at depth zero; no other instruction is marked. Putting instructions without a part
in the nesting in front, again and again, keeps this true of the new positions. -/
theorem ofBytesAt_grammar (base : Nat) (code : List UInt8) :
    ((∃ d, ofBytesAt base code = .ok d) ↔
      ∃ items : Items, Splits Reader.instruction ⟨code, base⟩ items.bodyWord) ∧
    ∀ d, ofBytesAt base code = .ok d → ∃ items : Items,
      Splits Reader.instruction ⟨code, base⟩ items.bodyWord ∧ d.IsBody items ∧
      ∀ fronts : List (List Instruction),
        (∀ front ∈ fronts, ∀ i ∈ front, i.opcode.role? = none ∧ i.mark = none) →
        ∃ all : Items, all.word = fronts.reverse.flatten.map operation ++ items.word ∧
          (fronts.foldl prepend d).IsBody all := by
  have hread : ∀ d, ofBytesAt base code = .ok d → ∃ items : Items,
      Splits Reader.instruction ⟨code, base⟩ items.bodyWord ∧ d.IsBody items := by
    intro d h
    obtain ⟨hread, rfl⟩ := ofBytesAt_eq_ok_iff.1 h
    obtain ⟨⟨items, hbody⟩, hinstructions⟩ := isRead_iff.1 hread
    exact ⟨items, hbody.map_operation ▸ splits_of_isRead hinstructions base, hbody⟩
  refine ⟨⟨?_, ?_⟩, ?_⟩
  · rintro ⟨d, h⟩
    obtain ⟨items, hsplits, -⟩ := hread d h
    exact ⟨items, hsplits⟩
  · rintro ⟨items, hsplits⟩
    obtain ⟨read, hbare, hinstructions, hcode⟩ :=
      exists_isRead_of_splits hsplits items.map_operation_body
    have hbody : IsBody ⟨read⟩ items := hbare.trans items.map_bare_body
    exact ⟨⟨read⟩, ofBytesAt_eq_ok_iff.2 ⟨isRead_iff.2 ⟨⟨items, hbody⟩, hinstructions⟩, hcode⟩⟩
  · intro d h
    obtain ⟨items, hsplits, hbody⟩ := hread d h
    exact ⟨items, hsplits, hbody, fun fronts => hbody.foldl_prepend⟩

/-- A loop around a conditional with two arms. -/
def nested : List UInt8 := [
  0x03, 0x40, 0x41, 0x01, 0x04, 0x7f, 0x41, 0x02, 0x05, 0x41, 0x83, 0x00, 0x0b, 0x1a, 0x0b, 0x0b]

theorem ofBytesAt_grammar_nested :
    ∃ d, ofBytesAt 7 nested = .ok d ∧ ∃ items : Items,
      Splits Reader.instruction ⟨nested, 7⟩ items.bodyWord ∧ d.IsBody items ∧
      (∀ front ∈ [[Instruction.i32Const 1, .call 0], [.call 1]], ∀ i ∈ front,
        i.opcode.role? = none ∧ i.mark = none) ∧
      ∃ all : Items,
        all.word = [.call 1, .i32Const 1, .call 0].map operation ++ items.word ∧
        ((d.prepend [.i32Const 1, .call 0]).prepend [.call 1]).IsBody all := by
  have hplain : ∀ front ∈ [[Instruction.i32Const 1, .call 0], [.call 1]], ∀ i ∈ front,
      i.opcode.role? = none ∧ i.mark = none := by decide
  have hok : (ofBytesAt 7 nested).isOk = true := by decide +kernel
  cases h : ofBytesAt 7 nested with
  | error e => rw [h] at hok; cases hok
  | ok d =>
      obtain ⟨items, hsplits, hbody, hfronts⟩ := (ofBytesAt_grammar 7 nested).2 d h
      exact ⟨d, rfl, items, hsplits, hbody, hplain, hfronts _ hplain⟩

end Disassembly

end WasmMeter
