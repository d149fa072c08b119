import WasmMeter.Disassembly

/-!
The grammar of nested blocks. A body is a row of items and a terminator; an item is an instruction
without a part in the nesting, or a construct that holds one row or two rows of items. A syntax tree
says which instructions stand in a row and how they are marked there.
-/
namespace WasmMeter

/-- The instructions that open a construct which holds a single row. -/
inductive Opening where
  | block
  | loop
  | ifBlock
deriving DecidableEq, Repr

namespace Opening

def opcode : Opening → Opcode
  | block => .block
  | loop => .loop
  | ifBlock => .ifBlock

def role : Opening → BlockRole
  | block => .block
  | loop => .loop
  | ifBlock => .ifBlock

/-- An opening instruction plays the part that it is named for. -/
@[simp] theorem role?_opcode (opening : Opening) : opening.opcode.role? = some opening.role := by
  cases opening <;> rfl

theorem shape?_opcode (opening : Opening) : opening.opcode.shape? = some .block := by
  cases opening <;> rfl

end Opening

/-- A row of items, as a syntax tree. Each constructor but the first puts an item in front of the
`rest` of the row: a plain instruction, a construct that encloses one row, or a conditional with two
arms. -/
inductive Items where
  | nil
  | plain (opcode : Opcode) (immediate : Immediate) (isPlain : opcode.role? = none) (rest : Items)
  | enclosed (opening : Opening) (type : BlockType) (inner rest : Items)
  | conditional (type : BlockType) (first second rest : Items)

namespace Items

/-- The opcodes and immediates of a row, in order. -/
def word : Items → List (Opcode × Immediate)
  | nil => []
  | plain opcode immediate _ rest => (opcode, immediate) :: rest.word
  | enclosed opening type inner rest =>
      (opening.opcode, .block type) :: (inner.word ++ (.ending, .empty) :: rest.word)
  | conditional type first second rest =>
      (.ifBlock, .block type) :: (first.word ++ (.elseArm, .empty) ::
        (second.word ++ (.ending, .empty) :: rest.word))

/-- The instructions of a row of which the first stands at `position`, inside `depth` constructs. An
opening instruction is one deeper than what encloses it; an arm and a terminator have the depth, the
type and the position of the instruction that opened their construct. -/
def instructions : Items → (depth position : Nat) → List Instruction
  | nil, _, _ => []
  | plain opcode immediate _ rest, depth, position =>
      .new opcode immediate :: rest.instructions depth (position + 1)
  | enclosed opening type inner rest, depth, position =>
      let closing := position + 1 + inner.word.length
      ⟨opening.opcode, .block type, some ⟨opening.role, depth + 1, type, none⟩, none⟩ ::
        (inner.instructions (depth + 1) (position + 1) ++
          ⟨.ending, .empty, some ⟨.ending, depth + 1, type, some position⟩, none⟩ ::
            rest.instructions depth (closing + 1))
  | conditional type first second rest, depth, position =>
      let middle := position + 1 + first.word.length
      let closing := middle + 1 + second.word.length
      ⟨.ifBlock, .block type, some ⟨.ifBlock, depth + 1, type, none⟩, none⟩ ::
        (first.instructions (depth + 1) (position + 1) ++
          ⟨.elseArm, .empty, some ⟨.elseArm, depth + 1, type, some position⟩, none⟩ ::
            (second.instructions (depth + 1) (middle + 1) ++
              ⟨.ending, .empty, some ⟨.ending, depth + 1, type, some position⟩, none⟩ ::
                rest.instructions depth (closing + 1)))

/-- Where a row with a construct in front ends. -/
theorem add_length_word_enclosed (position : Nat) (opening : Opening) (type : BlockType)
    (inner rest : Items) :
    position + (enclosed opening type inner rest).word.length =
      position + 1 + inner.word.length + 1 + rest.word.length := by
  simp only [word, List.length_cons, List.length_append]
  omega

/-- The same for a construct with two arms, which has a separator in between. -/
theorem add_length_word_conditional (position : Nat) (type : BlockType)
    (first second rest : Items) :
    position + (conditional type first second rest).word.length =
      position + 1 + first.word.length + 1 + second.word.length + 1 + rest.word.length := by
  simp only [word, List.length_cons, List.length_append]
  omega

/-- The opcodes and immediates of a body: those of its items, and the terminator. -/
def bodyWord (items : Items) : List (Opcode × Immediate) := items.word ++ [(.ending, .empty)]

/-- The instructions of a body. Its items are inside no construct, and its terminator is at depth
zero, without an opener. -/
def body (items : Items) : List Instruction :=
  items.instructions 0 0 ++ [⟨.ending, .empty, some ⟨.ending, 0, .empty, none⟩, none⟩]

end Items

namespace Instruction

/-- Opcode and immediate. -/
def operation (instruction : Instruction) : Opcode × Immediate :=
  (instruction.opcode, instruction.immediate)

/-- The instruction without the bytes it was read from. -/
def bare (instruction : Instruction) : Instruction := { instruction with source := none }

/-- Two instructions are alike but for their sources if all else is alike. -/
theorem bare_eq {instruction : Instruction} {opcode : Opcode} {immediate : Immediate} {mark : Option BlockMark}
    (hopcode : instruction.opcode = opcode) (himmediate : instruction.immediate = immediate)
    (hmark : instruction.mark = mark) : instruction.bare = ⟨opcode, immediate, mark, none⟩ := by
  rw [bare, hopcode, himmediate, hmark]

end Instruction

namespace Items

open Instruction

/-- The marks of a tree are added to its word, and nothing else. The induction is on the tree. -/
theorem map_operation_instructions (items : Items) (depth position : Nat) :
    (items.instructions depth position).map operation = items.word := by
  induction items generalizing depth position with
  | nil => rfl
  | plain opcode immediate isPlain rest ih => simp [instructions, word, ih, operation, new]
  | enclosed opening type inner rest ihInner ih =>
      simp [instructions, word, ihInner, ih, operation]
  | conditional type first second rest ihFirst ihSecond ih =>
      simp [instructions, word, ihFirst, ihSecond, ih, operation]

/-- The instructions of a tree have no source. -/
theorem map_bare_instructions (items : Items) (depth position : Nat) :
    (items.instructions depth position).map bare = items.instructions depth position := by
  induction items generalizing depth position with
  | nil => rfl
  | plain opcode immediate isPlain rest ih => simp [instructions, ih, bare, new]
  | enclosed opening type inner rest ihInner ih => simp [instructions, ihInner, ih, bare]
  | conditional type first second rest ihFirst ihSecond ih =>
      simp [instructions, ihFirst, ihSecond, ih, bare]

theorem map_bare_body (items : Items) : items.body.map bare = items.body := by
  rw [body, List.map_append, map_bare_instructions]
  rfl

/-- Likewise with the terminator of the body. -/
theorem map_operation_body (items : Items) : items.body.map operation = items.bodyWord := by
  rw [body, List.map_append, map_operation_instructions]
  rfl

/-- A row that begins further on is the same row with its openers moved. -/
theorem instructions_add (items : Items) (depth position distance : Nat) :
    items.instructions depth (position + distance) =
      (items.instructions depth position).map (Disassembly.moveOpener distance) := by
  induction items generalizing depth position with
  | nil => rfl
  | plain opcode immediate isPlain rest ih =>
      simp only [instructions, List.map_cons, ← ih, Nat.add_right_comm position distance]
      rfl
  | enclosed opening type inner rest ihInner ih =>
      simp only [instructions, List.map_cons, List.map_append, ← ihInner, ← ih,
        Nat.add_right_comm _ distance]
      rfl
  | conditional type first second rest ihFirst ihSecond ih =>
      simp only [instructions, List.map_cons, List.map_append, ← ihFirst, ← ihSecond, ← ih,
        Nat.add_right_comm _ distance]
      rfl

/-- Instructions without a part in the nesting are items of their own. -/
theorem exists_behind (items : Items) {front : List Instruction}
    (h : ∀ i ∈ front, i.opcode.role? = none ∧ i.mark = none) :
    ∃ all : Items, all.word = front.map operation ++ items.word ∧ ∀ depth position,
      all.instructions depth position =
        front.map bare ++ items.instructions depth (position + front.length) := by
  induction front with
  | nil => exact ⟨items, rfl, fun _ _ => rfl⟩
  | cons i front ih =>
      obtain ⟨⟨hplain, hmark⟩, hfront⟩ := List.forall_mem_cons.1 h
      obtain ⟨all, hword, hall⟩ := ih hfront
      refine ⟨.plain i.opcode i.immediate hplain all, ?_, fun depth position => ?_⟩
      · rw [word, hword]
        rfl
      · rw [instructions, hall, List.map_cons, List.length_cons, bare_eq rfl rfl hmark,
          Nat.add_assoc position 1, Nat.add_comm 1]
        rfl

end Items

end WasmMeter
