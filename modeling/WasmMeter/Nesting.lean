import WasmMeter.Instruction

/-!
The nesting of blocks in a flat sequence of instructions, followed with a stack of the blocks that
are open. The body itself is a block that is always open: it is at depth zero, is not on the stack,
and the terminator that finds the stack empty closes it.
-/
namespace WasmMeter

/-- A block that has been opened and not closed yet, with the position of the instruction that opened
it. Only the first arm of a conditional may be followed by a second one. -/
structure OpenBlock where
  opener : Nat
  depth : Nat
  type : BlockType
  awaitsElse : Bool
deriving DecidableEq, Repr

/-- The open blocks, innermost first. -/
abbrev Nesting := List OpenBlock

namespace Nesting

/-- The depth that is reached; each open block knows its own. -/
def depth : Nesting → Nat
  | [] => 0
  | top :: _ => top.depth

/-- What an instruction does to the nesting. -/
inductive Step where
  | inside (mark : Option BlockMark) (blocks : Nesting)
  | closed (mark : BlockMark)
  | unmatched
deriving DecidableEq, Repr

/-- The mark that closes the body. -/
def bodyEnd : BlockMark := ⟨.ending, 0, .empty, none⟩

/-- A block of the given role and type, opened at a position. -/
def push (blocks : Nesting) (position : Nat) (role : BlockRole) (type : BlockType) : Step :=
  let depth := depth blocks + 1
  .inside (some ⟨role, depth, type, none⟩) (⟨position, depth, type, role = .ifBlock⟩ :: blocks)

/-- The step of the instruction at a position. An arm of a conditional and a terminator carry the
depth, the type and the opener of the block they belong to. -/
def step (blocks : Nesting) (position : Nat) (role : Option BlockRole) (type : BlockType) : Step :=
  match role, blocks with
  | none, _ => .inside none blocks
  | some .elseArm, [] => .unmatched
  | some .elseArm, top :: outer =>
      if top.awaitsElse then
        .inside (some ⟨.elseArm, top.depth, top.type, some top.opener⟩)
          ({ top with awaitsElse := false } :: outer)
      else .unmatched
  | some .ending, [] => .closed bodyEnd
  | some .ending, top :: outer =>
      .inside (some ⟨.ending, top.depth, top.type, some top.opener⟩) outer
  | some role, _ => push blocks position role type

end Nesting

/-- The type that an immediate gives to a block. -/
def Immediate.blockType : Immediate → BlockType
  | .block type => type
  | _ => .empty

end WasmMeter
