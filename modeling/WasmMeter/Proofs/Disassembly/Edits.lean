import Mathlib.Data.List.Chain
import WasmMeter.Proofs.Disassembly.Editing

/-!
Sequences that are edited again and again. Edits are told by position, and instructions that are put in
front move the positions of all others, so what happened to one instruction is the list of the immediates
that were supplied to it. An edited sequence is the instructions that were put in front and, behind them,
every old instruction after its own history.
-/
namespace WasmMeter

/-- A change of a sequence: another immediate for the instruction at a position, or new instructions in
front of all others. -/
inductive Edit where
  | set (position : Nat) (immediate : Immediate)
  | prepend (operations : List (Opcode × Immediate))
deriving DecidableEq, Repr

namespace Edit

/-- How many instructions are put in front. -/
def inserted : List Edit → Nat
  | [] => 0
  | set _ _ :: edits => inserted edits
  | prepend operations :: edits => inserted edits + operations.length

/-- The immediates that are supplied, one after another, to the instruction that is at a position before
the first of the edits. -/
def supplied : List Edit → Nat → List Immediate
  | [], _ => []
  | set position immediate :: edits, place =>
      if position = place then immediate :: supplied edits place else supplied edits place
  | prepend operations :: edits, place => supplied edits (place + operations.length)

end Edit

namespace Instruction

/-- The instruction after all of these immediates were supplied to it. -/
def revise (instruction : Instruction) (immediates : List Immediate) : Instruction :=
  immediates.foldl withImmediate instruction

variable (instruction : Instruction) (immediate : Immediate) (immediates : List Immediate)

@[simp] theorem revise_nil : instruction.revise [] = instruction := rfl

/-- Immediates are supplied one after another. -/
theorem revise_cons :
    instruction.revise (immediate :: immediates) =
      (instruction.withImmediate immediate).revise immediates := rfl

/-- No immediate replaces an opcode. -/
@[simp] theorem opcode_revise : (instruction.revise immediates).opcode = instruction.opcode := by
  induction immediates generalizing instruction with
  | nil => rfl
  | cons immediate immediates ih => rw [revise_cons, ih, opcode_withImmediate]

/-- Nor does one touch a mark, even where the mark holds a copy of the type. -/
@[simp] theorem mark_revise : (instruction.revise immediates).mark = instruction.mark := by
  induction immediates generalizing instruction with
  | nil => rfl
  | cons immediate immediates ih => rw [revise_cons, ih, mark_withImmediate]

/-- The bytes are kept as long as each immediate is the one that is there already. -/
theorem source_revise :
    (instruction.revise immediates).source =
      if (instruction.immediate :: immediates).IsChain (· = ·) then instruction.source else none := by
  induction immediates generalizing instruction with
  | nil => rw [revise_nil, if_pos (List.isChain_singleton _)]
  | cons immediate immediates ih =>
      rw [revise_cons, ih, immediate_withImmediate, withImmediate]
      by_cases h : instruction.immediate = immediate
      · simp only [List.isChain_cons_cons, h, if_true, true_and]
      · simp only [List.isChain_cons_cons, h, if_false, false_and, ite_self]

/-- An opener is moved and an immediate supplied in either order. -/
theorem moveOpener_withImmediate (distance : Nat) :
    (Disassembly.moveOpener distance instruction).withImmediate immediate =
      Disassembly.moveOpener distance (instruction.withImmediate immediate) := by
  unfold withImmediate
  rw [apply_ite (Disassembly.moveOpener distance)]
  rfl

/-- So all the immediates may be supplied before or after the move. -/
theorem moveOpener_revise (distance : Nat) :
    (Disassembly.moveOpener distance instruction).revise immediates =
      Disassembly.moveOpener distance (instruction.revise immediates) := by
  induction immediates generalizing instruction with
  | nil => rfl
  | cons immediate immediates ih => rw [revise_cons, moveOpener_withImmediate, ih, revise_cons]

/-- To move by nothing changes nothing. -/
theorem moveOpener_zero : Disassembly.moveOpener 0 instruction = instruction := by
  obtain ⟨opcode, immediate, mark, source⟩ := instruction
  cases mark with
  | none => rfl
  | some mark =>
      obtain ⟨role, depth, type, opener⟩ := mark
      cases opener <;> rfl

/-- Two moves are one by both distances. -/
theorem moveOpener_moveOpener (first second : Nat) :
    Disassembly.moveOpener second (Disassembly.moveOpener first instruction) =
      Disassembly.moveOpener (second + first) instruction := by
  unfold Disassembly.moveOpener
  simp only [Option.map_map]
  congr 2
  funext mark
  simp only [Function.comp_apply, Option.map_map]
  congr 2
  funext opener
  simp only [Function.comp_apply]
  omega

end Instruction

namespace Disassembly

open Edit Instruction

def apply (d : Disassembly) : Edit → Disassembly
  | .set position immediate => d.setImmediate position immediate
  | .prepend operations => d.prepend (operations.map fun operation => .new operation.1 operation.2)

def edit (d : Disassembly) (edits : List Edit) : Disassembly := edits.foldl apply d

/-- An instruction that was put in front by one of the edits. -/
structure IsInserted (edits : List Edit) (instruction : Instruction) : Prop where
  source : instruction.source = none
  mark : instruction.mark = none
  opcode : ∃ operations, .prepend operations ∈ edits ∧ instruction.opcode ∈ operations.map Prod.fst

/-- What later edits put in front was put in front by the edits as a whole. -/
theorem IsInserted.behind {edits : List Edit} {instruction : Instruction}
    (h : IsInserted edits instruction) (edit : Edit) : IsInserted (edit :: edits) instruction := by
  obtain ⟨hsource, hmark, operations, hedit, hopcode⟩ := h
  exact ⟨hsource, hmark, operations, List.mem_cons_of_mem edit hedit, hopcode⟩

/-- What the edits make of the instruction that is at a place before them. -/
def revised (edits : List Edit) (place : Nat) (instruction : Instruction) : Instruction :=
  moveOpener (inserted edits) (instruction.revise (supplied edits place))

/-- What is put in front first goes through the edits behind. -/
theorem isInserted_revised {operations : List (Opcode × Immediate)} {operation : Opcode × Immediate}
    (h : operation ∈ operations) (edits : List Edit) (place : Nat) :
    IsInserted (.prepend operations :: edits)
      (revised edits place (.new operation.1 operation.2)) where
  source := by
    show (revise _ _).source = none
    rw [source_revise]
    exact ite_self none
  mark := by
    show (revise _ _).mark.map _ = none
    rw [mark_revise]
    rfl
  opcode := by
    refine ⟨operations, List.mem_cons_self, ?_⟩
    show (revise _ _).opcode ∈ _
    rw [opcode_revise]
    exact List.mem_map_of_mem h

theorem revised_nil (place : Nat) (instruction : Instruction) :
    revised [] place instruction = instruction :=
  moveOpener_zero instruction

/-- The first edit reaches the instruction if it stands at the position. -/
theorem revised_set (edits : List Edit) (position place : Nat) (immediate : Immediate)
    (instruction : Instruction) :
    revised (.set position immediate :: edits) place instruction =
      revised edits place
        (if position = place then instruction.withImmediate immediate else instruction) := by
  rw [revised, supplied]
  split <;> rfl

/-- Instructions that are put in front move it, and its opener with it, before later edits are looked
at. -/
theorem revised_prepend (edits : List Edit) (operations : List (Opcode × Immediate)) (place : Nat)
    (instruction : Instruction) :
    revised (.prepend operations :: edits) place instruction =
      revised edits (place + operations.length) (moveOpener operations.length instruction) := by
  rw [revised, revised, moveOpener_revise, moveOpener_moveOpener]
  rfl

theorem mapIdx_revised_nil (instructions : List Instruction) :
    instructions.mapIdx (revised []) = instructions := by
  refine List.ext_getElem? fun place => ?_
  rw [List.getElem?_mapIdx]
  cases instructions[place]? with
  | none => rfl
  | some instruction => rw [Option.map_some, revised_nil]

/-- To set an immediate changes one place and no other. -/
theorem getElem?_setImmediate (d : Disassembly) (position : Nat) (immediate : Immediate)
    (place : Nat) :
    (d.setImmediate position immediate).instructions[place]? = d.instructions[place]?.map
      fun instruction =>
        if position = place then instruction.withImmediate immediate else instruction := by
  rw [setImmediate, List.getElem?_modify]
  cases d.instructions[place]? with
  | none => rfl
  | some instruction => split <;> rfl

/-- All histories grow by the edit, those that it does not reach by nothing. -/
theorem mapIdx_revised_set (d : Disassembly) (edits : List Edit) (position : Nat)
    (immediate : Immediate) :
    (d.setImmediate position immediate).instructions.mapIdx (revised edits) =
      d.instructions.mapIdx (revised (.set position immediate :: edits)) := by
  refine List.ext_getElem? fun place => ?_
  rw [List.getElem?_mapIdx, List.getElem?_mapIdx, getElem?_setImmediate, Option.map_map]
  congr 1
  funext instruction
  exact (revised_set edits position place immediate instruction).symm

/-- Positions are counted from the new front, so every history is that of the moved place. -/
theorem mapIdx_revised_prepend (instructions : List Instruction) (edits : List Edit)
    (operations : List (Opcode × Immediate)) :
    (instructions.map (moveOpener operations.length)).mapIdx
        (fun place => revised edits (place + operations.length)) =
      instructions.mapIdx (revised (.prepend operations :: edits)) := by
  refine List.ext_getElem? fun place => ?_
  rw [List.getElem?_mapIdx, List.getElem?_mapIdx, List.getElem?_map, Option.map_map]
  congr 1
  funext instruction
  exact (revised_prepend edits operations place instruction).symm

/-- Behind what was put in front, every instruction has gone through its own history. -/
theorem exists_instructions_edit (d : Disassembly) (edits : List Edit) :
    ∃ front : List Instruction, front.length = inserted edits ∧ (∀ i ∈ front, IsInserted edits i) ∧
      (d.edit edits).instructions = front ++ d.instructions.mapIdx (revised edits) := by
  induction edits generalizing d with
  | nil =>
      exact ⟨[], rfl, List.forall_mem_nil _, (mapIdx_revised_nil d.instructions).symm⟩
  | cons edit edits ih =>
      -- the edits behind are made to a sequence that has the first one's instructions in front already
      obtain ⟨front, hlength, hfront, hinstructions⟩ := ih (d.apply edit)
      cases edit with
      | set position immediate =>
          refine ⟨front, hlength, fun i hi => (hfront i hi).behind _, ?_⟩
          exact hinstructions.trans (congrArg _ (mapIdx_revised_set d edits position immediate))
      | prepend operations =>
          let new := (operations.map fun o => Instruction.new o.1 o.2).mapIdx (revised edits)
          refine ⟨front ++ new, ?_, ?_, ?_⟩
          · simp [new, hlength, inserted]
          · intro i hi
            rcases List.mem_append.1 hi with hi | hi
            · exact (hfront i hi).behind _
            · obtain ⟨place, hplace, rfl⟩ := List.mem_mapIdx.1 hi
              rw [List.getElem_map]
              exact isInserted_revised (List.getElem_mem _) edits place
          · refine hinstructions.trans ?_
            show front ++ (_ ++ d.instructions.map (moveOpener _)).mapIdx _ = _
            rw [List.mapIdx_append, List.length_map, mapIdx_revised_prepend, List.append_assoc]

/-! ### Edits that fit -/

/-- The edit leaves a sequence that can be read: an immediate is one that the opcode at the position takes,
and what is put in front has immediates that its opcodes take and no part in the nesting. -/
def Fits (d : Disassembly) : Edit → Prop
  | .set position immediate => ∀ i, d.instructions[position]? = some i → i.opcode.Takes immediate
  | .prepend operations => ∀ o ∈ operations, o.1.role? = none ∧ o.1.Takes o.2

instance (d : Disassembly) : (edit : Edit) → Decidable (d.Fits edit)
  | .set position immediate =>
      inferInstanceAs (Decidable (∀ i ∈ d.instructions[position]?, i.opcode.Takes immediate))
  | .prepend operations =>
      inferInstanceAs (Decidable (∀ o ∈ operations, o.1.role? = none ∧ o.1.Takes o.2))

/-- Each edit fits the sequence that those before it have left. -/
def AllFit : Disassembly → List Edit → Prop
  | _, [] => True
  | d, edit :: edits => d.Fits edit ∧ (d.apply edit).AllFit edits

instance decidableAllFit : (d : Disassembly) → (edits : List Edit) → Decidable (d.AllFit edits)
  | _, [] => isTrue trivial
  | d, edit :: edits =>
      have := decidableAllFit (d.apply edit) edits
      inferInstanceAs (Decidable (d.Fits edit ∧ (d.apply edit).AllFit edits))

variable {d : Disassembly} {edits : List Edit} {instruction : Instruction}

/-- What is put in front has no part in the nesting. -/
theorem AllFit.role?_eq_none (h : d.AllFit edits) (hi : IsInserted edits instruction) :
    instruction.opcode.role? = none := by
  obtain ⟨-, -, operations, hedit, hopcode⟩ := hi
  obtain ⟨operation, ho, hopcode⟩ := List.mem_map.1 hopcode
  rw [← hopcode]
  induction edits generalizing d with
  | nil => cases hedit
  | cons edit edits ih =>
      obtain ⟨hfits, hrest⟩ := h
      rcases List.mem_cons.1 hedit with rfl | hedit
      · exact (hfits operation ho).1
      · exact ih hrest hedit

/-- An edit that fits leaves instructions whose bytes are read as them. -/
theorem Fits.readable {edit : Edit} (h : d.Fits edit) (hd : ∀ i ∈ d.instructions, i.Readable) :
    ∀ i ∈ (d.apply edit).instructions, i.Readable := by
  cases edit with
  | set position immediate =>
      intro i hi
      obtain ⟨place, hplace⟩ := List.mem_iff_getElem?.1 hi
      rw [apply, getElem?_setImmediate] at hplace
      obtain ⟨instruction, hold, hi⟩ := Option.map_eq_some_iff.1 hplace
      have hreadable := hd instruction (List.mem_of_getElem? hold)
      split at hi
      · next hp =>
        subst hp hi
        exact hreadable.withImmediate (h instruction hold)
      · exact hi ▸ hreadable
  | prepend operations =>
      intro i hi
      rcases List.mem_append.1 hi with hi | hi
      · obtain ⟨operation, ho, rfl⟩ := List.mem_map.1 hi
        exact Instruction.readable_new (h operation ho).2
      · obtain ⟨instruction, hold, rfl⟩ := List.mem_map.1 hi
        exact hd instruction hold

/-- If every immediate fits the opcode that it is supplied to, all of the edited sequence is read back.
-/
theorem AllFit.readable {edits : List Edit} (h : d.AllFit edits)
    (hd : ∀ i ∈ d.instructions, i.Readable) : ∀ i ∈ (d.edit edits).instructions, i.Readable := by
  induction edits generalizing d with
  | nil => exact hd
  | cons edit edits ih => exact ih h.2 (h.1.readable hd)

end Disassembly

end WasmMeter
