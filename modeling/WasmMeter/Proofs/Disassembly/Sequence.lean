import WasmMeter.Proofs.Reading.Instruction

/-!
What bytes are read as a sequence of instructions. They are cut into the sources of the instructions,
one after another, and the nesting of blocks gives each instruction its mark. Reading is therefore
characterised without the reader's loop: bytes are read as a sequence exactly if the sequence is
assembled to them, its instructions are what their sources are read as, and the marks are those of
the nesting. The offset of the bytes does not matter.
-/
namespace WasmMeter

namespace Reader

variable {α σ : Type} {step : σ → Reader (σ ⊕ α)} {atEnd : σ → Reader α} {s t : σ} {a : α}

/-- A loop that answers has come to its end, or has taken one more step. -/
theorem whileUnread_eq_ok_iff (h : ∀ s, Progresses (step s)) {c d : Cursor} :
    whileUnread step atEnd s c = .ok a d ↔
      c.isEmpty = true ∧ atEnd s c = .ok a d ∨
      c.isEmpty = false ∧ (step s c = .ok (.inr a) d ∨
        ∃ t e, step s c = .ok (.inl t) e ∧ whileUnread step atEnd t e = .ok a d) := by
  rw [whileUnread_eq_iff h]
  simp

theorem Reads.mapEnd {r : Reader α} {bytes : List UInt8} (h : Reads r bytes a)
    (cause : Nat → Error) : Reads (mapEnd cause r) bytes a :=
  fun rest place => mapEnd_eq_ok_iff.2 (h rest place)

/-- Bytes of one step, then bytes of the loop that goes on. -/
theorem Reads.whileUnread {first second : List UInt8} (h : ∀ s, Progresses (step s))
    (hs : Reads (step s) first (.inl t)) (ht : Reads (whileUnread step atEnd t) second a) :
    Reads (whileUnread step atEnd s) (first ++ second) a := by
  intro rest place
  rw [List.append_assoc, whileUnread_eq h (isEmpty_append_of_ne_nil ((h s).ne_nil hs) _ _), hs]
  dsimp only
  rw [ht, List.length_append, Nat.add_assoc]

/-- Bytes of the step that answers. -/
theorem Reads.whileUnread_last {bytes : List UInt8} (h : ∀ s, Progresses (step s))
    (hs : Reads (step s) bytes (.inr a)) : Reads (Reader.whileUnread step atEnd s) bytes a := by
  intro rest place
  rw [whileUnread_eq h (isEmpty_append_of_ne_nil ((h s).ne_nil hs) _ _), hs]

end Reader

open Reader

namespace Instruction

/-- The instruction is what its source is read as. -/
def IsRead (instruction : Instruction) : Prop :=
  ∃ source, instruction.source = some source ∧
    Reads Reader.instruction source (instruction.opcode, instruction.immediate)

/-- The bytes of an instruction that was read are read as it, wherever they stand. -/
theorem IsRead.reads {instruction : Instruction} (h : instruction.IsRead) :
    Reads Reader.instruction instruction.toBytes (instruction.opcode, instruction.immediate) := by
  obtain ⟨source, hs, hr⟩ := h
  rwa [toBytes, hs]

theorem IsRead.source_eq {instruction : Instruction} (h : instruction.IsRead) :
    instruction.source = some instruction.toBytes := by
  obtain ⟨source, hs, -⟩ := h
  rw [toBytes, hs, Option.getD_some]

/-- What an instruction at a position does to the nesting. -/
def step (instruction : Instruction) (blocks : Nesting) (position : Nat) : Nesting.Step :=
  blocks.step position instruction.opcode.role? instruction.immediate.blockType

end Instruction

/-- From these open blocks and this position on, the instructions carry the marks that the nesting
gives them; the last one closes the body, and no other does. -/
inductive Nesting.Closes : Nesting → Nat → List Instruction → Prop where
  | last {blocks : Nesting} {position : Nat} {instruction : Instruction} {mark : BlockMark}
      (closed : instruction.step blocks position = .closed mark)
      (marked : instruction.mark = some mark) : Closes blocks position [instruction]
  | cons {blocks inner : Nesting} {position : Nat} {instruction : Instruction}
      {rest : List Instruction}
      (inside : instruction.step blocks position = .inside instruction.mark inner)
      (closes : Closes inner (position + 1) rest) : Closes blocks position (instruction :: rest)

namespace Disassembly

/-- The sequence is what its bytes are read as. -/
structure IsRead (d : Disassembly) : Prop where
  closes : Nesting.Closes [] 0 d.instructions
  instructions : ∀ instruction ∈ d.instructions, instruction.IsRead

theorem progresses_next (p : Progress) : Progresses p.next := by
  intro c a d h
  rw [Progress.next, position_bind] at h
  obtain ⟨⟨⟨opcode, immediate⟩, source⟩, e, hi, hd⟩ := bind_eq_ok_iff.1 h
  have hlt := progresses_instruction c _ e (mapEnd_eq_ok_iff.1 (withSource_eq_ok_iff.1 hi).1)
  cases hs : p.blocks.step p.count opcode.role? immediate.blockType with
  | inside mark blocks =>
      simp only [hs] at hd
      obtain ⟨-, rfl⟩ := pure_eq_ok_iff.1 hd
      exact hlt
  | closed mark =>
      simp only [hs] at hd
      obtain ⟨-, rfl⟩ := pure_eq_ok_iff.1 hd
      exact hlt
  | unmatched =>
      simp only [hs] at hd
      exact absurd hd throw_ne_ok

/-- One more instruction is read from its own bytes, and either the sequence goes on with what the
nesting makes of it, or the instruction closes the body. -/
theorem next_eq_ok {p : Progress} {c d : Cursor} {answer : Progress ⊕ Disassembly}
    (h : p.next c = .ok answer d) :
    ∃ instruction : Instruction, instruction.IsRead ∧
      c.unread = instruction.toBytes ++ d.unread ∧
      ((∃ inner, instruction.step p.blocks p.count = .inside instruction.mark inner ∧
          answer = .inl ⟨instruction :: p.done, p.count + 1, inner⟩) ∨
        ∃ mark, instruction.step p.blocks p.count = .closed mark ∧
          instruction.mark = some mark ∧ answer = .inr ⟨(instruction :: p.done).reverse⟩) := by
  rw [Progress.next, position_bind] at h
  obtain ⟨⟨⟨opcode, immediate⟩, source⟩, e, hi, hd⟩ := bind_eq_ok_iff.1 h
  obtain ⟨hr, hs⟩ := withSource_eq_ok_iff.1 hi
  have hr := mapEnd_eq_ok_iff.1 hr
  obtain ⟨bytes, hu, hb⟩ := selfDelimiting_instruction.reads uniform_instruction hr
  obtain rfl : source = bytes := hs.symm.trans (take_unread hu (hb.position_eq hu hr))
  cases hstep : p.blocks.step p.count opcode.role? immediate.blockType with
  | inside mark blocks =>
      simp only [hstep] at hd
      obtain ⟨rfl, rfl⟩ := pure_eq_ok_iff.1 hd
      exact ⟨⟨opcode, immediate, mark, some source⟩, ⟨source, rfl, hb⟩, hu,
        .inl ⟨blocks, hstep, rfl⟩⟩
  | closed mark =>
      simp only [hstep] at hd
      obtain ⟨rfl, rfl⟩ := pure_eq_ok_iff.1 hd
      exact ⟨⟨opcode, immediate, some mark, some source⟩, ⟨source, rfl, hb⟩, hu,
        .inr ⟨mark, hstep, rfl, rfl⟩⟩
  | unmatched =>
      simp only [hstep] at hd
      exact absurd hd throw_ne_ok

/-- One turn of the loop: an instruction that closes nothing of the body is added to those in front. -/
theorem reads_next_inside {p : Progress} {instruction : Instruction} {inner : Nesting}
    (hr : instruction.IsRead)
    (hs : instruction.step p.blocks p.count = .inside instruction.mark inner) :
    Reads p.next instruction.toBytes (.inl ⟨instruction :: p.done, p.count + 1, inner⟩) := by
  refine reads_position_bind fun start => ?_
  rw [← List.append_nil instruction.toBytes]
  refine (hr.reads.mapEnd _).withSource.bind ?_
  dsimp only
  rw [Instruction.step] at hs
  rw [hs, ← hr.source_eq]
  exact reads_pure _

/-- The last turn: the terminator of the body completes the sequence. -/
theorem reads_next_closed {p : Progress} {instruction : Instruction} {mark : BlockMark}
    (hr : instruction.IsRead) (hs : instruction.step p.blocks p.count = .closed mark)
    (hm : instruction.mark = some mark) :
    Reads p.next instruction.toBytes (.inr ⟨(instruction :: p.done).reverse⟩) := by
  refine reads_position_bind fun start => ?_
  rw [← List.append_nil instruction.toBytes]
  refine (hr.reads.mapEnd _).withSource.bind ?_
  dsimp only
  rw [Instruction.step] at hs
  rw [hs, ← hr.source_eq]
  dsimp only
  rw [← hm]
  exact reads_pure _

/-- The loop reads what closes the open blocks, instruction by instruction. -/
theorem reads_whileUnread {p : Progress} {atEnd : Progress → Reader Disassembly}
    {instructions : List Instruction} (hc : Nesting.Closes p.blocks p.count instructions)
    (hr : ∀ instruction ∈ instructions, instruction.IsRead) :
    Reads (whileUnread Progress.next atEnd p) (instructions.flatMap Instruction.toBytes)
      ⟨p.done.reverse ++ instructions⟩ := by
  obtain ⟨done, count, blocks⟩ := p
  dsimp only at hc ⊢
  induction hc generalizing done with
  | @last blocks position instruction mark closed marked =>
      have hi := hr instruction (by simp)
      have hlast : Reads (whileUnread Progress.next atEnd ⟨done, position, blocks⟩)
          instruction.toBytes ⟨(instruction :: done).reverse⟩ :=
        (reads_next_closed hi closed marked).whileUnread_last progresses_next
      simpa using hlast
  | @cons blocks inner position instruction rest inside closes ih =>
      have hi := hr instruction (by simp)
      have hrest := ih (fun i h => hr i (by simp [h])) (instruction :: done)
      have hloop : Reads (whileUnread Progress.next atEnd ⟨done, position, blocks⟩)
          (instruction.toBytes ++ rest.flatMap Instruction.toBytes)
          ⟨(instruction :: done).reverse ++ rest⟩ :=
        (reads_next_inside hi inside).whileUnread progresses_next hrest
      simpa using hloop

/-- Whatever the loop answers, it has read like that. The induction is on the bytes left to read. -/
theorem closes_of_whileUnread {p : Progress} {d : Disassembly} {c e : Cursor}
    (h : whileUnread Progress.next (fun _ => do throw (.truncatedBody (← position))) p c =
      .ok d e) :
    ∃ instructions, d.instructions = p.done.reverse ++ instructions ∧
      Nesting.Closes p.blocks p.count instructions ∧
      (∀ instruction ∈ instructions, instruction.IsRead) ∧
      c.unread = instructions.flatMap Instruction.toBytes ++ e.unread := by
  induction hn : c.remaining using Nat.strongRecOn generalizing p c with
  | ind n ih =>
      subst hn
      rcases (whileUnread_eq_ok_iff progresses_next).1 h with ⟨-, hend⟩ | ⟨-, hlast | hmore⟩
      · cases hend
      · obtain ⟨instruction, hi, hu, ⟨_, -, ha⟩ | ⟨mark, hs, hm, ha⟩⟩ := next_eq_ok hlast
        · cases ha
        · cases ha
          exact ⟨[instruction], by simp, .last hs hm, by simpa using hi, by simpa using hu⟩
      · obtain ⟨q, middle, hstep, hloop⟩ := hmore
        obtain ⟨instruction, hi, hu, ⟨inner, hs, ha⟩ | ⟨mark, -, -, ha⟩⟩ := next_eq_ok hstep
        · cases ha
          obtain ⟨rest, hd, hc, hr, hm⟩ := ih _ (progresses_next p _ _ _ hstep) hloop rfl
          refine ⟨instruction :: rest, by simpa using hd, .cons hs hc, ?_, ?_⟩
          · intro i hmem
            rcases List.mem_cons.1 hmem with rfl | hmem
            · exact hi
            · exact hr i hmem
          · rw [hu, hm, List.flatMap_cons, List.append_assoc]
        · cases ha

/-- The bytes of a sequence that was read are read as it, in place. -/
theorem IsRead.reads {d : Disassembly} (h : d.IsRead) : Reads read d.assemble d :=
  reads_whileUnread (p := ⟨[], 0, []⟩) h.closes h.instructions

/-- A sequence is read from its own bytes, and they are all that is taken. -/
theorem read_eq_ok {d : Disassembly} {c e : Cursor} (h : read c = .ok d e) :
    d.IsRead ∧ c.unread = d.assemble ++ e.unread := by
  obtain ⟨instructions, hd, hc, hr, hu⟩ := closes_of_whileUnread h
  cases (hd : d.instructions = instructions)
  exact ⟨⟨hc, hr⟩, hu⟩

/-- Nothing may stand behind the body, and looking for it takes nothing. -/
theorem checkEnd_eq_ok_iff {c d : Cursor} :
    checkEnd c = .ok () d ↔ c.unread = [] ∧ c = d := by
  obtain ⟨unread, place⟩ := c
  cases unread with
  | nil =>
      constructor
      · intro h; cases h; exact ⟨rfl, rfl⟩
      · rintro ⟨-, rfl⟩; rfl
  | cons b rest =>
      constructor
      · intro h
        rw [checkEnd, position_bind, bind_of_ok (rfl : peek? _ = .ok (some b) _)] at h
        dsimp only at h
        split at h <;> cases h
      · rintro ⟨h, -⟩; cases h

/-- Bytes are read as a sequence exactly if the sequence is one that is read and is assembled to
them. -/
theorem ofBytesAt_eq_ok_iff {base : Nat} {code : List UInt8} {d : Disassembly} :
    ofBytesAt base code = .ok d ↔ d.IsRead ∧ d.assemble = code := by
  have hanswer : ofBytesAt base code = .ok d ↔
      ∃ e, (do let d ← read; checkEnd; return d : Reader Disassembly) ⟨code, base⟩ = .ok d e := by
    unfold ofBytesAt answer
    split <;> simp_all
  rw [hanswer]
  constructor
  · rintro ⟨e, h⟩
    obtain ⟨b, middle, hread, h⟩ := bind_eq_ok_iff.1 h
    obtain ⟨⟨⟩, last, hend, h⟩ := bind_eq_ok_iff.1 h
    obtain ⟨rfl, -⟩ := pure_eq_ok_iff.1 h
    obtain ⟨hu, -⟩ := checkEnd_eq_ok_iff.1 hend
    obtain ⟨hd, hcode⟩ := read_eq_ok hread
    rw [hu, List.append_nil] at hcode
    exact ⟨hd, hcode.symm⟩
  · rintro ⟨hd, rfl⟩
    have hread := hd.reads [] base
    rw [List.append_nil] at hread
    exact ⟨_, bind_eq_ok_iff.2 ⟨d, _, hread, bind_eq_ok_iff.2
      ⟨(), _, checkEnd_eq_ok_iff.2 ⟨rfl, rfl⟩, pure_eq_ok_iff.2 ⟨rfl, rfl⟩⟩⟩⟩

/-- The offset of the code does not show in the sequence. -/
theorem ofBytesAt_eq_ok_iff_ofBytes {base : Nat} {code : List UInt8} {d : Disassembly} :
    ofBytesAt base code = .ok d ↔ ofBytes code = .ok d := by
  rw [ofBytes, ofBytesAt_eq_ok_iff, ofBytesAt_eq_ok_iff]

end Disassembly

end WasmMeter
