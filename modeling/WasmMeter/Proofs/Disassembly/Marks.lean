import WasmMeter.Proofs.Disassembly.Edits
import WasmMeter.Proofs.Disassembly.Parsing

/-!
The marks of an edited sequence. Edits that fit leave the opcodes of the nesting as they are, so the bytes
that the sequence is assembled to are read again, and role, depth and opener of every mark come out the
same. The type of a mark is a copy of the type that its block was opened with, and to set another type
does not change the copies: all marks are those that are read again exactly if every block has the type
that it had before the edits.
-/
namespace WasmMeter

open Edit

/-! ### Leaving out types -/

/-- The mark without the type of its block. -/
def BlockMark.untyped (mark : BlockMark) : BlockMark := { mark with type := .empty }

def OpenBlock.untyped (block : OpenBlock) : OpenBlock := { block with type := .empty }

namespace Instruction

/-- The mark, if there is one, without the type of its block. -/
def untypedMark (instruction : Instruction) : Option BlockMark := instruction.mark.map BlockMark.untyped

/-- The instruction without its mark. -/
def unmarked (instruction : Instruction) : Instruction := { instruction with mark := none }

/-- The type of the block that the instruction opens, if it opens one. -/
def opens? (instruction : Instruction) : Option BlockType :=
  match instruction.opcode.role? with
  | some .block | some .loop | some .ifBlock => some instruction.immediate.blockType
  | _ => none

variable {i : Instruction}

/-- An opening instruction opens a block of the type in its immediate. -/
theorem opens?_of_opening {opening : Opening} (hi : i.opcode = opening.opcode) :
    i.opens? = some i.immediate.blockType := by
  rw [opens?, hi, Opening.role?_opcode]
  cases opening <;> rfl

theorem opens?_of_plain (hi : i.opcode.role? = none) : i.opens? = none := by
  rw [opens?, hi]

/-- An arm or a terminator has a copy of the type and opens nothing. -/
theorem opens?_of_separator (hi : i.IsSeparator) : i.opens? = none := by
  unfold opens?
  rcases hi with hi | hi <;> rw [hi] <;> rfl

end Instruction

namespace Nesting

/-- The step without the types of blocks. -/
def Step.untyped : Step → Step
  | .inside mark blocks => .inside (mark.map BlockMark.untyped) (blocks.map OpenBlock.untyped)
  | .closed mark => .closed mark.untyped
  | .unmatched => .unmatched

theorem depth_map_untyped (blocks : Nesting) : depth (blocks.map OpenBlock.untyped) = depth blocks := by
  cases blocks <;> rfl

/-- Types decide nothing about a step but types. -/
theorem untyped_step (blocks : Nesting) (position : Nat) (role : Option BlockRole)
    (type : BlockType) : (step blocks position role type).untyped =
      step (blocks.map OpenBlock.untyped) position role .empty := by
  cases role with
  | none => rfl
  | some role =>
      cases role with
      | block | loop | ifBlock =>
          simp only [step, push, depth_map_untyped]
          rfl
      | elseArm =>
          cases blocks with
          | nil => rfl
          | cons top outer =>
              simp only [step, List.map_cons, OpenBlock.untyped]
              split <;> rfl
      | ending => cases blocks <;> rfl

variable {blocks others : Nesting} {position : Nat} {i j : Instruction}
  {first second instructions : List Instruction}

/-- The opcode of an instruction decides its step, up to types. -/
theorem untyped_step_congr (hop : j.opcode = i.opcode)
    (hblocks : others.map OpenBlock.untyped = blocks.map OpenBlock.untyped) (position : Nat) :
    (j.step others position).untyped = (i.step blocks position).untyped := by
  rw [Instruction.step, Instruction.step, untyped_step, untyped_step, hop, hblocks]

/-- Instructions with the opcodes of some that close can be marked so that they close, and these marks
differ in types at most. -/
theorem Closes.exists_marked (h : Closes blocks position first)
    (hblocks : others.map OpenBlock.untyped = blocks.map OpenBlock.untyped)
    (hop : instructions.map Instruction.opcode = first.map Instruction.opcode) :
    ∃ marked : List Instruction, Closes others position marked ∧
      marked.map Instruction.unmarked = instructions.map Instruction.unmarked ∧
      marked.map Instruction.untypedMark = first.map Instruction.untypedMark := by
  induction h generalizing others instructions with
  | @last blocks position i mark closed marked =>
      obtain ⟨j, rest, rfl, hj, hrest⟩ := List.map_eq_cons_iff.1 hop
      obtain rfl := List.map_eq_nil_iff.1 hrest
      -- without types both steps are the same, so this one closes the body too
      have hstep := untyped_step_congr hj hblocks position
      rw [closed] at hstep
      cases hj' : j.step others position with
      | closed mark' =>
          rw [hj'] at hstep
          refine ⟨[{ j with mark := some mark' }], .last hj' rfl, rfl, ?_⟩
          simp only [Step.untyped, Step.closed.injEq] at hstep
          simp [Instruction.untypedMark, marked, hstep]
      | inside mark' inner => rw [hj'] at hstep; cases hstep
      | unmatched => rw [hj'] at hstep; cases hstep
  | @cons blocks inner position i rest inside closes ih =>
      obtain ⟨j, rest, rfl, hj, hrest⟩ := List.map_eq_cons_iff.1 hop
      have hstep := untyped_step_congr hj hblocks position
      rw [inside] at hstep
      cases hj' : j.step others position with
      | inside mark' inner' =>
          rw [hj'] at hstep
          simp only [Step.untyped, Step.inside.injEq] at hstep
          obtain ⟨marked, hcloses, hunmarked, huntyped⟩ := ih hstep.2 hrest
          refine ⟨{ j with mark := mark' } :: marked, .cons hj' hcloses, ?_, ?_⟩
          · rw [List.map_cons, hunmarked]
            rfl
          · rw [List.map_cons, huntyped, List.map_cons, Instruction.untypedMark, hstep.1]
            rfl
      | closed mark' => rw [hj'] at hstep; cases hstep
      | unmatched => rw [hj'] at hstep; cases hstep

/-- Of instructions with the same opcodes, those that close the same blocks have the same marks exactly
if they open blocks of the same types. -/
theorem Closes.map_mark_eq_iff (h : Closes blocks position first) (h' : Closes blocks position second)
    (hop : second.map Instruction.opcode = first.map Instruction.opcode) :
    second.map Instruction.mark = first.map Instruction.mark ↔
      second.map Instruction.opens? = first.map Instruction.opens? := by
  induction first generalizing blocks position second with
  | nil => cases h
  | cons i first ih =>
      obtain ⟨j, second, rfl, hj, hrest⟩ := List.map_eq_cons_iff.1 hop
      simp only [List.map_cons, List.cons.injEq]
      have behind {inner : Nesting} (hmark : j.mark = i.mark) (hopens : j.opens? = i.opens?)
          (hcloses : Closes inner (position + 1) first)
          (hcloses' : Closes inner (position + 1) second) :
          j.mark = i.mark ∧ second.map Instruction.mark = first.map Instruction.mark ↔
            j.opens? = i.opens? ∧ second.map Instruction.opens? = first.map Instruction.opens? := by
        simp only [hmark, hopens, true_and]
        exact ih hcloses hcloses' hrest
      rcases i.opcode.role_cases with hplain | ⟨opening, hopening⟩ | hseparator
      · have hplain' := hplain
        rw [← hj] at hplain'
        obtain ⟨hmark, hcloses⟩ := h.of_plain hplain
        obtain ⟨hmark', hcloses'⟩ := h'.of_plain hplain'
        have hopens := (Instruction.opens?_of_plain hplain').trans
          (Instruction.opens?_of_plain hplain).symm
        exact behind (hmark'.trans hmark.symm) hopens hcloses hcloses'
      · -- what follows is read on the same stack only if the types agree, and if they do not, neither
        -- the marks nor the types of the whole agree
        obtain ⟨hmark, hcloses⟩ := h.of_opening hopening
        obtain ⟨hmark', hcloses'⟩ := h'.of_opening (hj.trans hopening)
        rw [hmark, hmark', Instruction.opens?_of_opening hopening,
          Instruction.opens?_of_opening (hj.trans hopening)]
        simp only [Option.some.injEq, BlockMark.mk.injEq, true_and, and_true]
        refine and_congr_right fun htype => ?_
        rw [htype] at hcloses'
        exact ih hcloses hcloses' hrest
      · have hseparator' : j.IsSeparator := by rwa [Instruction.IsSeparator, hj]
        have hopens := (Instruction.opens?_of_separator hseparator').trans
          (Instruction.opens?_of_separator hseparator).symm
        cases blocks with
        | nil =>
            obtain ⟨-, hmark, rfl⟩ := h.of_nil hseparator
            obtain ⟨-, hmark', rfl⟩ := h'.of_nil hseparator'
            simp only [hmark, hmark', hopens, List.map_nil]
        | cons top outer =>
            rcases hseparator with helse | hend
            · obtain ⟨-, hmark, hcloses⟩ := h.of_elseArm helse
              obtain ⟨-, hmark', hcloses'⟩ := h'.of_elseArm (hj.trans helse)
              exact behind (hmark'.trans hmark.symm) hopens hcloses hcloses'
            · obtain ⟨hmark, hcloses⟩ := h.of_ending hend
              obtain ⟨hmark', hcloses'⟩ := h'.of_ending (hj.trans hend)
              exact behind (hmark'.trans hmark.symm) hopens hcloses hcloses'

end Nesting

namespace Disassembly

open Instruction Nesting

variable {d : Disassembly} {edits : List Edit} {code : List UInt8}

/-! ### Sequences that differ in their marks -/

/-- Whatever does not look at marks is the same where only marks differ. -/
theorem map_eq_of_unmarked {α : Type} {first second : List Instruction}
    (h : first.map unmarked = second.map unmarked) (f : Instruction → α)
    (hf : ∀ i : Instruction, f i.unmarked = f i) : first.map f = second.map f := by
  have hmap (instructions : List Instruction) :
      (instructions.map unmarked).map f = instructions.map f := by
    rw [List.map_map]
    exact List.map_congr_left fun i _ => hf i
  rw [← hmap first, ← hmap second, h]

/-- Place by place, what is compared may depend on the place. -/
theorem map_mapIdx_eq_map_iff {α β γ : Type} {entries : List α} {f : Nat → α → β} {g : β → γ}
    {g' : α → γ} : (entries.mapIdx f).map g = entries.map g' ↔
      ∀ place a, entries[place]? = some a → g (f place a) = g' a := by
  rw [List.ext_getElem?_iff]
  refine forall_congr' fun place => ?_
  rw [List.getElem?_map, List.getElem?_mapIdx, List.getElem?_map]
  cases entries[place]? with
  | none => simp
  | some a => simp

/-- Every block has the type that it had before the edits. -/
def KeepsTypes (d : Disassembly) (edits : List Edit) : Prop :=
  ∀ (place : Nat) (instruction : Instruction), d.instructions[place]? = some instruction →
    (instruction.revise (supplied edits place)).opens? = instruction.opens?

/-- An edited sequence has the marks of one that closes: that in which nothing was set. -/
theorem exists_closes_edit (h : d.IsRead) (hfit : d.AllFit edits) :
    ∃ nested : List Instruction, Closes [] 0 nested ∧
      (d.edit edits).instructions.map opcode = nested.map opcode ∧
      (d.edit edits).instructions.map mark = nested.map mark ∧
      ((d.edit edits).instructions.map opens? = nested.map opens? ↔ d.KeepsTypes edits) := by
  obtain ⟨front, hlength, hfront, hinstructions⟩ := d.exists_instructions_edit edits
  have hplain : ∀ i ∈ front, i.opcode.role? = none ∧ i.mark = none :=
    fun i hi => ⟨hfit.role?_eq_none (hfront i hi), (hfront i hi).mark⟩
  have hcloses := Closes.append hplain (h.closes.move front.length)
  rw [hinstructions, hlength] at *
  refine ⟨front ++ d.instructions.map (moveOpener (inserted edits)), hcloses, ?_, ?_, ?_⟩
  · rw [List.map_append, List.map_append, List.map_map]
    exact congrArg _ (map_mapIdx_eq_map_iff.2 fun place i _ => i.opcode_revise _)
  · rw [List.map_append, List.map_append, List.map_map]
    exact congrArg _ (map_mapIdx_eq_map_iff.2 fun place i _ =>
      congrArg (Option.map _) (i.mark_revise _))
  · rw [List.map_append, List.map_append, List.map_map, List.append_cancel_left_eq]
    exact map_mapIdx_eq_map_iff

/-- The edited sequence can be marked so that it is read back. -/
theorem exists_marked_edit (h : d.IsRead) (hfit : d.AllFit edits) :
    ∃ marked : Disassembly, marked.Readable ∧
      marked.instructions.map unmarked = (d.edit edits).instructions.map unmarked ∧
      marked.instructions.map untypedMark = (d.edit edits).instructions.map untypedMark ∧
      (marked.instructions.map mark = (d.edit edits).instructions.map mark ↔
        d.KeepsTypes edits) := by
  obtain ⟨nested, hnested, hopcode, hmark, hkeeps⟩ := exists_closes_edit h hfit
  obtain ⟨marked, hmarked, hunmarked, huntyped⟩ := hnested.exists_marked rfl hopcode
  have hsame : (d.edit edits).instructions.map untypedMark = nested.map untypedMark := by
    have hmap := congrArg (List.map (Option.map BlockMark.untyped)) hmark
    rwa [List.map_map, List.map_map] at hmap
  refine ⟨⟨marked⟩, ⟨hmarked, ?_⟩, hunmarked, huntyped.trans hsame.symm, ?_⟩
  · intro i hi
    have hmem : i.unmarked ∈ (d.edit edits).instructions.map unmarked :=
      hunmarked ▸ List.mem_map_of_mem hi
    obtain ⟨j, hj, hji⟩ := List.mem_map.1 hmem
    have hreadable : j.unmarked.Readable :=
      hfit.readable (fun i hi => (h.instructions i hi).reads) j hj
    rwa [hji] at hreadable
  · have hopcodes := map_eq_of_unmarked hunmarked opcode fun _ => rfl
    have hopens := map_eq_of_unmarked hunmarked opens? fun _ => rfl
    rw [hmark, hnested.map_mark_eq_iff hmarked (hopcodes.trans hopcode), hopens, hkeeps]

/-! ### Reading an edited sequence again -/

/-- The edited sequence is read again from the bytes that it is assembled to: opcodes, immediates and
the places in the nesting are its own. -/
theorem exists_ofBytes_edit (h : ofBytes code = .ok d) (hfit : d.AllFit edits) :
    ∃ again, ofBytes (d.edit edits).assemble = .ok again ∧
      again.instructions.map operation = (d.edit edits).instructions.map operation ∧
      again.instructions.map untypedMark = (d.edit edits).instructions.map untypedMark ∧
      (again.instructions.map mark = (d.edit edits).instructions.map mark ↔
        d.KeepsTypes edits) := by
  obtain ⟨hread, -⟩ := ofBytesAt_eq_ok_iff.1 h
  obtain ⟨marked, hreadable, hunmarked, huntyped, hmark⟩ := exists_marked_edit hread hfit
  have hassemble : marked.assemble = (d.edit edits).assemble := by
    rw [assemble, assemble, List.flatMap_def, List.flatMap_def,
      map_eq_of_unmarked hunmarked Instruction.toBytes fun _ => rfl]
  have hsettle {α : Type} (f : Instruction → α) (hf : ∀ i : Instruction, f i.settle = f i) :
      marked.settle.instructions.map f = marked.instructions.map f := by
    rw [Disassembly.settle, List.map_map]
    exact List.map_congr_left fun i _ => hf i
  refine ⟨marked.settle, ?_, ?_, ?_, ?_⟩
  · rw [← hassemble]
    exact hreadable.ofBytesAt_assemble 0
  · rw [hsettle operation fun _ => rfl]
    exact map_eq_of_unmarked hunmarked operation fun _ => rfl
  · rw [hsettle untypedMark fun _ => rfl, huntyped]
  · rw [hsettle mark fun _ => rfl, hmark]

/-- Edited code is read back as the edit: after any edits that fit, the bytes are read as a sequence that
has the same opcode and the same immediate at every position. -/
theorem ofBytes_assemble_edit (h : ofBytes code = .ok d) (hfit : d.AllFit edits) :
    ∃ again, ofBytes (d.edit edits).assemble = .ok again ∧
      again.instructions.length = (d.edit edits).instructions.length ∧
      again.instructions.map operation = (d.edit edits).instructions.map operation := by
  obtain ⟨again, hagain, hoperation, -⟩ := exists_ofBytes_edit h hfit
  have hlength := congrArg List.length hoperation
  rw [List.length_map, List.length_map] at hlength
  exact ⟨again, hagain, hlength, hoperation⟩

/-- A block around a call. -/
def enclosedCall : Disassembly := ⟨[
  ⟨.block, .block .empty, some ⟨.block, 1, .empty, none⟩, some [0x02, 0x40]⟩,
  ⟨.call, .index 1, none, some [0x10, 0x81, 0x00]⟩,
  ⟨.ending, .empty, some ⟨.ending, 1, .empty, some 0⟩, some [0x0b]⟩,
  ⟨.ending, .empty, some Nesting.bodyEnd, some [0x0b]⟩]⟩

theorem ofBytes_assemble_edit_enclosedCall :
    ofBytes [0x02, 0x40, 0x10, 0x81, 0x00, 0x0b, 0x0b] = .ok enclosedCall ∧
      enclosedCall.AllFit [.prepend [(.i32Const, .i32 (-1))], .set 1 (.block (.typeIndex 64))] ∧
      ∃ again, ofBytes [0x41, 0x7f, 0x02, 0xc0, 0x00, 0x10, 0x81, 0x00, 0x0b, 0x0b] = .ok again ∧
        again.instructions.map operation = [(.i32Const, .i32 (-1)), (.block, .block (.typeIndex 64)),
          (.call, .index 1), (.ending, .empty), (.ending, .empty)] := by
  let edits : List Edit := [.prepend [(.i32Const, .i32 (-1))], .set 1 (.block (.typeIndex 64))]
  have hcode : ofBytes [0x02, 0x40, 0x10, 0x81, 0x00, 0x0b, 0x0b] = .ok enclosedCall := by
    decide +kernel
  have hfit : enclosedCall.AllFit edits := by decide +kernel
  obtain ⟨again, hagain, -, hoperation⟩ := ofBytes_assemble_edit hcode hfit
  have hassemble : (enclosedCall.edit edits).assemble =
      [0x41, 0x7f, 0x02, 0xc0, 0x00, 0x10, 0x81, 0x00, 0x0b, 0x0b] := by decide +kernel
  exact ⟨hcode, hfit, again, hassemble ▸ hagain, hoperation⟩

/-- After edits that fit, the bytes are read as a sequence in which role, depth and opener of every mark
are those of the edited sequence. The types of the marks are as well exactly if no block was set to
another type than it had: the marks of the edited sequence keep the types from before. -/
theorem map_mark_edit (h : ofBytes code = .ok d) (hfit : d.AllFit edits) :
    ∃ again, ofBytes (d.edit edits).assemble = .ok again ∧
      again.instructions.map untypedMark = (d.edit edits).instructions.map untypedMark ∧
      (again.instructions.map mark = (d.edit edits).instructions.map mark ↔
        d.KeepsTypes edits) := by
  obtain ⟨again, hagain, -, huntyped, hmark⟩ := exists_ofBytes_edit h hfit
  exact ⟨again, hagain, huntyped, hmark⟩

theorem map_mark_edit_enclosedCall :
    ofBytes [0x02, 0x40, 0x10, 0x81, 0x00, 0x0b, 0x0b] = .ok enclosedCall ∧
      enclosedCall.AllFit [.prepend [(.i32Const, .i32 (-1))], .set 2 (.index 5)] ∧
      ∃ again, ofBytes [0x41, 0x7f, 0x02, 0x40, 0x10, 0x05, 0x0b, 0x0b] = .ok again ∧
        again.instructions.map mark = [none, some ⟨.block, 1, .empty, none⟩, none,
          some ⟨.ending, 1, .empty, some 1⟩, some Nesting.bodyEnd] := by
  let edits : List Edit := [.prepend [(.i32Const, .i32 (-1))], .set 2 (.index 5)]
  have hcode : ofBytes [0x02, 0x40, 0x10, 0x81, 0x00, 0x0b, 0x0b] = .ok enclosedCall := by
    decide +kernel
  have hfit : enclosedCall.AllFit edits := by decide +kernel
  have hkeeps : enclosedCall.KeepsTypes edits := by
    intro place i hi
    rcases place with _ | _ | _ | _ | place <;> cases hi <;> rfl
  obtain ⟨again, hagain, -, hmark⟩ := map_mark_edit hcode hfit
  have hassemble : (enclosedCall.edit edits).assemble =
      [0x41, 0x7f, 0x02, 0x40, 0x10, 0x05, 0x0b, 0x0b] := by decide +kernel
  exact ⟨hcode, hfit, again, hassemble ▸ hagain, hmark.2 hkeeps⟩

/-- To set the type of a block leaves the old one in its marks. -/
theorem map_mark_ne_of_retyped :
    ∃ d again : Disassembly, ofBytes [0x02, 0x40, 0x0b, 0x0b] = .ok d ∧
      d.AllFit [.set 0 (.block (.value .i32))] ∧
      ofBytes (d.edit [.set 0 (.block (.value .i32))]).assemble = .ok again ∧
      again.instructions.map mark ≠
        (d.edit [.set 0 (.block (.value .i32))]).instructions.map mark := by
  let d : Disassembly := ⟨[
    ⟨.block, .block .empty, some ⟨.block, 1, .empty, none⟩, some [0x02, 0x40]⟩,
    ⟨.ending, .empty, some ⟨.ending, 1, .empty, some 0⟩, some [0x0b]⟩,
    ⟨.ending, .empty, some Nesting.bodyEnd, some [0x0b]⟩]⟩
  let again : Disassembly := ⟨[
    ⟨.block, .block (.value .i32), some ⟨.block, 1, .value .i32, none⟩, some [0x02, 0x7f]⟩,
    ⟨.ending, .empty, some ⟨.ending, 1, .value .i32, some 0⟩, some [0x0b]⟩,
    ⟨.ending, .empty, some Nesting.bodyEnd, some [0x0b]⟩]⟩
  exact ⟨d, again, by decide +kernel, by decide +kernel, by decide +kernel, by decide +kernel⟩

end Disassembly

end WasmMeter
