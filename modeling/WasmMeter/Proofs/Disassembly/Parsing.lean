import Mathlib.Tactic.SplitIfs
import WasmMeter.Proofs.Disassembly.Editing
import WasmMeter.Proofs.Disassembly.Grammar

/-!
The stack of open blocks and the grammar of nested blocks. The instructions of a syntax tree close
what is open around them; and instructions that close, each with an immediate of the right shape, are
those of a syntax tree with their marks. The rows of the tree are the stretches between what opens a
construct and what ends it.
-/
namespace WasmMeter

/-! ### From the grammar to the stack -/

namespace Nesting

open Instruction Items

variable {blocks inner outer : Nesting} {top : OpenBlock} {position : Nat}
  {instruction : Instruction} {instructions tail : List Instruction}

/-- Whether blocks are closed does not depend on the bytes of the instructions. -/
theorem closes_map_bare_iff :
    Closes blocks position (instructions.map bare) ↔ Closes blocks position instructions := by
  constructor
  · intro h
    induction instructions generalizing blocks position with
    | nil => exact h
    | cons i rest ih =>
        rw [List.map_cons] at h
        cases hrest : rest with
        | nil =>
            subst hrest
            cases h with
            | last closed marked => exact .last closed marked
            | cons inside closes => cases closes
        | cons j tail =>
            rw [hrest] at h
            cases h with
            | cons inside closes =>
                exact .cons inside (hrest ▸ ih (hrest ▸ closes))
  · intro h
    exact h.map (fun _ _ _ => rfl) fun _ => rfl

/-- What opens a construct is put on the stack. -/
theorem step_opening (opening : Opening) (type : BlockType) (blocks : Nesting) (position : Nat) :
    blocks.step position opening.opcode.role? type =
      .inside (some ⟨opening.role, depth blocks + 1, type, none⟩)
        (⟨position, depth blocks + 1, type, opening = .ifBlock⟩ :: blocks) := by
  cases opening <;> rfl

/-- A terminator closes the innermost block, whose marks it repeats. -/
theorem closes_ending (top : OpenBlock) (h : Closes outer (position + 1) tail) :
    Closes (top :: outer) position
      (⟨.ending, .empty, some ⟨.ending, top.depth, top.type, some top.opener⟩, none⟩ :: tail) :=
  .cons rfl h

/-- An arm goes on with the same block, which then waits for no other arm. -/
theorem closes_elseArm (top : OpenBlock) (ha : top.awaitsElse = true)
    (h : Closes ({ top with awaitsElse := false } :: outer) (position + 1) tail) :
    Closes (top :: outer) position
      (⟨.elseArm, .empty, some ⟨.elseArm, top.depth, top.type, some top.opener⟩, none⟩ :: tail) := by
  refine .cons ?_ h
  show step (top :: outer) position (some .elseArm) .empty = _
  rw [step, if_pos ha]

/-- A row that stands in front leaves the open blocks as they are. The induction is on the tree; the
rows inside a construct are read with the construct on the stack. -/
theorem closes_instructions (items : Items)
    (h : Closes blocks (position + items.word.length) tail) :
    Closes blocks position (items.instructions (depth blocks) position ++ tail) := by
  induction items generalizing blocks position tail with
  | nil => exact h
  | plain opcode immediate isPlain rest ih =>
      have hrest : Closes blocks (position + 1)
          (rest.instructions (depth blocks) (position + 1) ++ tail) := by
        apply ih
        rwa [Items.word, List.length_cons, Nat.add_comm rest.word.length, ← Nat.add_assoc] at h
      refine .cons ?_ hrest
      simp [step, Instruction.step, new, isPlain]
  | enclosed opening type inner rest ihInner ih =>
      let opened : OpenBlock := ⟨position, depth blocks + 1, type, opening = .ifBlock⟩
      let closing := position + 1 + inner.word.length
      rw [add_length_word_enclosed] at h
      have hrest : Closes blocks (closing + 1)
          (rest.instructions (depth blocks) (closing + 1) ++ tail) := ih h
      have hinner := ihInner (closes_ending opened hrest)
      simp only [Items.instructions, List.cons_append, List.append_assoc]
      exact .cons (step_opening opening type blocks position) hinner
  | conditional type first second rest ihFirst ihSecond ih =>
      let opened : OpenBlock := ⟨position, depth blocks + 1, type, true⟩
      let reopened : OpenBlock := ⟨position, depth blocks + 1, type, false⟩
      let closing := position + 1 + first.word.length + 1 + second.word.length
      rw [add_length_word_conditional] at h
      have hrest : Closes blocks (closing + 1)
          (rest.instructions (depth blocks) (closing + 1) ++ tail) := ih h
      have hsecond := ihSecond (closes_ending reopened hrest)
      have hfirst := ihFirst (closes_elseArm opened rfl hsecond)
      simp only [Items.instructions, List.cons_append, List.append_assoc]
      exact .cons (step_opening .ifBlock type blocks position) hfirst

/-- The body of a tree closes. -/
theorem closes_body (items : Items) : Closes [] 0 items.body :=
  closes_instructions items (.last rfl rfl)

/-! ### From the stack to the grammar -/

/-- A terminator closes the block on top of the stack. -/
theorem Closes.of_ending (h : Closes (top :: outer) position (instruction :: tail))
    (hi : instruction.opcode = .ending) :
    instruction.mark = some ⟨.ending, top.depth, top.type, some top.opener⟩ ∧
      Closes outer (position + 1) tail := by
  have hrole : instruction.opcode.role? = some .ending := by rw [hi]; rfl
  cases h with
  | last closed marked => simp [Instruction.step, step, hrole] at closed
  | cons inside closes =>
      simp only [Instruction.step, step, hrole, Step.inside.injEq] at inside
      exact ⟨inside.1.symm, inside.2 ▸ closes⟩

/-- A second arm belongs to the block on top of the stack, which must be waiting for it. -/
theorem Closes.of_elseArm (h : Closes (top :: outer) position (instruction :: tail))
    (hi : instruction.opcode = .elseArm) :
    top.awaitsElse = true ∧
      instruction.mark = some ⟨.elseArm, top.depth, top.type, some top.opener⟩ ∧
      Closes ({ top with awaitsElse := false } :: outer) (position + 1) tail := by
  have hrole : instruction.opcode.role? = some .elseArm := by rw [hi]; rfl
  cases ha : top.awaitsElse with
  | false => cases h <;> simp_all [Instruction.step, step]
  | true =>
      cases h with
      | last closed marked => simp [Instruction.step, step, hrole, ha] at closed
      | cons inside closes =>
          simp only [Instruction.step, step, hrole, ha, if_true, Step.inside.injEq] at inside
          exact ⟨rfl, inside.1.symm, inside.2 ▸ closes⟩

/-- Behind an opening instruction its block is the innermost one. -/
theorem Closes.of_opening {opening : Opening}
    (h : Closes blocks position (instruction :: tail))
    (hi : instruction.opcode = opening.opcode) :
    instruction.mark = some ⟨opening.role, depth blocks + 1, instruction.immediate.blockType, none⟩ ∧
      Closes (⟨position, depth blocks + 1, instruction.immediate.blockType,
        opening = .ifBlock⟩ :: blocks) (position + 1) tail := by
  have hstep := step_opening opening instruction.immediate.blockType blocks position
  rw [← hi] at hstep
  cases h with
  | last closed marked =>
      rw [Instruction.step, hstep] at closed
      cases closed
  | cons inside closes =>
      simp only [Instruction.step, hstep, Step.inside.injEq] at inside
      exact ⟨inside.1.symm, inside.2 ▸ closes⟩

/-- An instruction without a part in the nesting leaves the blocks as they are. -/
theorem Closes.of_plain (h : Closes blocks position (instruction :: tail))
    (hi : instruction.opcode.role? = none) :
    instruction.mark = none ∧ Closes blocks (position + 1) tail := by
  cases h with
  | last closed marked => simp [Instruction.step, step, hi] at closed
  | cons inside closes =>
      simp only [Instruction.step, step, hi, Step.inside.injEq] at inside
      exact ⟨inside.1.symm, inside.2 ▸ closes⟩

/-- With no block open, a terminator closes the body, and a second arm belongs nowhere. -/
theorem Closes.of_nil (h : Closes [] position (instruction :: tail))
    (hi : instruction.opcode = .elseArm ∨ instruction.opcode = .ending) :
    instruction.opcode = .ending ∧ instruction.mark = some bodyEnd ∧ tail = [] := by
  rcases hi with hi | hi
  · have hrole : instruction.opcode.role? = some .elseArm := by rw [hi]; rfl
    cases h <;> simp_all [Instruction.step, step]
  · have hrole : instruction.opcode.role? = some .ending := by rw [hi]; rfl
    cases h with
    | last closed marked =>
        simp only [Instruction.step, step, hrole, Step.closed.injEq] at closed
        exact ⟨hi, closed ▸ marked, rfl⟩
    | cons inside closes => simp [Instruction.step, step, hrole] at inside

end Nesting

namespace Opcode

/-- An instruction has no part in the nesting, opens a construct, divides it or closes it. -/
theorem role_cases (opcode : Opcode) :
    opcode.role? = none ∨ (∃ opening : Opening, opcode = opening.opcode) ∨
      opcode = .elseArm ∨ opcode = .ending := by
  unfold role?
  split_ifs with hblock hloop hif helse hend
  · exact .inr (.inl ⟨.block, hblock⟩)
  · exact .inr (.inl ⟨.loop, hloop⟩)
  · exact .inr (.inl ⟨.ifBlock, hif⟩)
  · exact .inr (.inr (.inl helse))
  · exact .inr (.inr (.inr hend))
  · exact .inl rfl

end Opcode

namespace Instruction

variable {instruction : Instruction}

/-- The immediate has the shape that the opcode asks for. -/
def IsShaped (instruction : Instruction) : Prop :=
  instruction.opcode.shape? = some instruction.immediate.shape

/-- The immediate of an opening instruction is a block type. -/
theorem IsShaped.immediate_of_opening {opening : Opening} (h : instruction.IsShaped)
    (hi : instruction.opcode = opening.opcode) :
    instruction.immediate = .block instruction.immediate.blockType := by
  rw [IsShaped, hi, Opening.shape?_opcode, Option.some.injEq] at h
  cases hm : instruction.immediate <;> simp [hm, Immediate.shape] at h
  rfl

/-- An instruction that ends a row: a second arm or a terminator. -/
def IsSeparator (instruction : Instruction) : Prop :=
  instruction.opcode = .elseArm ∨ instruction.opcode = .ending

theorem IsShaped.immediate_of_separator (h : instruction.IsShaped) (hi : instruction.IsSeparator) :
    instruction.immediate = .empty := by
  have hs : instruction.opcode.shape? = some .empty := by
    rcases hi with hi | hi <;> rw [hi] <;> rfl
  rw [IsShaped, hs, Option.some.injEq] at h
  cases hm : instruction.immediate <;> simp [hm, Immediate.shape] at h
  rfl

end Instruction

namespace Nesting

open Instruction

variable {blocks : Nesting} {position : Nat} {instruction last : Instruction}
  {instructions rest tail : List Instruction}

/-- The instructions begin with the row of a tree, and what is behind the row begins with an
instruction that ends it. -/
def BeginsWithRow (blocks : Nesting) (position : Nat) (instructions : List Instruction) : Prop :=
  ∃ (items : Items) (last : Instruction) (tail : List Instruction),
    instructions.map bare =
      items.instructions (depth blocks) position ++ (last :: tail).map bare ∧
    last.IsSeparator ∧ (∀ i ∈ last :: tail, i.IsShaped) ∧
    Closes blocks (position + items.word.length) (last :: tail)

theorem BeginsWithRow.plain (hplain : instruction.opcode.role? = none)
    (hmark : instruction.mark = none) (h : BeginsWithRow blocks (position + 1) rest) :
    BeginsWithRow blocks position (instruction :: rest) := by
  obtain ⟨items, last, tail, hitems, hlast, hshaped, hclosed⟩ := h
  refine ⟨.plain _ instruction.immediate hplain items, last, tail, ?_, hlast, hshaped, ?_⟩
  · rw [List.map_cons, hitems, bare_eq rfl rfl hmark]
    rfl
  · rwa [Items.word, List.length_cons, Nat.add_comm items.word.length, ← Nat.add_assoc]

/-- What opens a construct, the row inside it and its terminator are one item. -/
theorem BeginsWithRow.enclosed {opening : Opening} {type : BlockType} {inner : Items}
    (hopening : instruction.bare =
      ⟨opening.opcode, .block type, some ⟨opening.role, depth blocks + 1, type, none⟩, none⟩)
    (hinner : rest.map bare =
      inner.instructions (depth blocks + 1) (position + 1) ++ (last :: tail).map bare)
    (hlast : last.bare =
      ⟨.ending, .empty, some ⟨.ending, depth blocks + 1, type, some position⟩, none⟩)
    (h : BeginsWithRow blocks (position + 1 + inner.word.length + 1) tail) :
    BeginsWithRow blocks position (instruction :: rest) := by
  obtain ⟨items, next, behind, hitems, hnext, hshaped, hclosed⟩ := h
  refine ⟨.enclosed opening type inner items, next, behind, ?_, hnext, hshaped, ?_⟩
  · rw [List.map_cons, hopening, hinner, List.map_cons, hlast, hitems]
    simp [Items.instructions]
  · rwa [Items.add_length_word_enclosed]

/-- A conditional with a second arm is one item. -/
theorem BeginsWithRow.conditional {type : BlockType} {first second : Items} {middle : Instruction}
    {arm : List Instruction}
    (hopening : instruction.bare =
      ⟨.ifBlock, .block type, some ⟨.ifBlock, depth blocks + 1, type, none⟩, none⟩)
    (hfirst : rest.map bare =
      first.instructions (depth blocks + 1) (position + 1) ++ (middle :: arm).map bare)
    (hmiddle : middle.bare =
      ⟨.elseArm, .empty, some ⟨.elseArm, depth blocks + 1, type, some position⟩, none⟩)
    (hsecond : arm.map bare =
      second.instructions (depth blocks + 1) (position + 1 + first.word.length + 1) ++
        (last :: tail).map bare)
    (hlast : last.bare =
      ⟨.ending, .empty, some ⟨.ending, depth blocks + 1, type, some position⟩, none⟩)
    (h : BeginsWithRow blocks
      (position + 1 + first.word.length + 1 + second.word.length + 1) tail) :
    BeginsWithRow blocks position (instruction :: rest) := by
  obtain ⟨items, next, behind, hitems, hnext, hshaped, hclosed⟩ := h
  refine ⟨.conditional type first second items, next, behind, ?_, hnext, hshaped, ?_⟩
  · rw [List.map_cons, hopening, hfirst, List.map_cons, hmiddle, hsecond, List.map_cons, hlast,
      hitems]
    simp [Items.instructions]
  · rwa [Items.add_length_word_conditional]

/-- Behind an item there is less than in front of it: this is what the parser descends on. -/
theorem length_lt_of_map_bare {front : List Instruction}
    (h : rest.map bare = front ++ (last :: tail).map bare) : tail.length < rest.length := by
  have hlength := congrArg List.length h
  simp only [List.length_append, List.length_map, List.length_cons] at hlength
  omega

/-- Instructions that close begin with a row. The induction is on their number: behind what opens a
construct there is a row, what ends it, perhaps a second row, and the row behind the construct. -/
theorem Closes.beginsWithRow (h : Closes blocks position instructions)
    (hshaped : ∀ i ∈ instructions, i.IsShaped) : BeginsWithRow blocks position instructions := by
  induction hn : instructions.length using Nat.strongRecOn
    generalizing blocks position instructions with
  | ind n ih =>
      subst hn
      cases instructions with
      | nil => cases h
      | cons instruction rest =>
          obtain ⟨hfirst, hrest⟩ := List.forall_mem_cons.1 hshaped
          rcases instruction.opcode.role_cases with hplain | ⟨opening, hopening⟩ | hseparator
          · obtain ⟨hmark, hcloses⟩ := h.of_plain hplain
            exact .plain hplain hmark (ih _ (by simp) hcloses hrest rfl)
          · obtain ⟨hmark, hcloses⟩ := h.of_opening hopening
            have hbare := bare_eq hopening (hfirst.immediate_of_opening hopening) hmark
            obtain ⟨inner, last, tail, hinner, hlast, htail, hclosed⟩ :=
              ih _ (by simp) hcloses hrest rfl
            have hless := length_lt_of_map_bare hinner
            obtain ⟨hlastShaped, htailShaped⟩ := List.forall_mem_cons.1 htail
            have hempty := hlastShaped.immediate_of_separator hlast
            rcases hlast with helse | hend
            · obtain ⟨hawaits, hmark, hcloses⟩ := hclosed.of_elseArm helse
              obtain rfl := of_decide_eq_true hawaits
              have hmiddle := bare_eq helse hempty hmark
              obtain ⟨second, last, behind, hsecond, hlast, hbehind, hclosed⟩ :=
                ih _ (by simp; omega) hcloses htailShaped rfl
              have hlesser := length_lt_of_map_bare hsecond
              obtain ⟨hlastShaped, hbehindShaped⟩ := List.forall_mem_cons.1 hbehind
              have hempty := hlastShaped.immediate_of_separator hlast
              rcases hlast with helse | hend
              · cases (hclosed.of_elseArm helse).1
              · obtain ⟨hmark, hcloses⟩ := hclosed.of_ending hend
                exact .conditional hbare hinner hmiddle hsecond (bare_eq hend hempty hmark)
                  (ih _ (by simp; omega) hcloses hbehindShaped rfl)
            · obtain ⟨hmark, hcloses⟩ := hclosed.of_ending hend
              exact .enclosed hbare hinner (bare_eq hend hempty hmark)
                (ih _ (by simp; omega) hcloses htailShaped rfl)
          · exact ⟨.nil, instruction, rest, rfl, hseparator, hshaped, h⟩

/-- Instructions that close when no block is open are a body. -/
theorem Closes.exists_body (h : Closes [] 0 instructions)
    (hshaped : ∀ i ∈ instructions, i.IsShaped) :
    ∃ items : Items, instructions.map bare = items.body := by
  obtain ⟨items, last, tail, hitems, hlast, hshaped, hclosed⟩ := h.beginsWithRow hshaped
  obtain ⟨hend, hmark, rfl⟩ := hclosed.of_nil hlast
  have hempty := (hshaped last (by simp)).immediate_of_separator hlast
  refine ⟨items, ?_⟩
  rw [hitems, List.map_singleton, bare_eq hend hempty hmark]
  rfl

end Nesting

end WasmMeter
