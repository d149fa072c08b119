import WasmMeter.Proofs.Disassembly.Sequence
import WasmMeter.Proofs.Location.Instruction
import WasmMeter.Proofs.Reading.Refusal

/-!
Code delimits itself. No part of accepted code is accepted but the whole, and where it ends is found
without being told: short of the end there is too little to read, behind it there is too much, and read
in place it takes its own bytes and no other.
-/
namespace WasmMeter.Disassembly

open Reader

variable {base : Nat} {code : List UInt8} {d : Disassembly}

/-! ### Why a sequence is refused -/

/-- What may be wrong with the bytes of a sequence. -/
def codeKinds : List Error.Kind := .unmatchedBlockEnd :: instructionKinds

/-- The blocks that are open do not look ahead, and neither does an instruction. -/
theorem selfDelimiting_next (p : Progress) : SelfDelimiting p.next := by
  refine selfDelimiting_position_bind fun start =>
    (selfDelimiting_instruction.mapEnd _).withSource.bind ?_
  rintro ⟨⟨opcode, immediate⟩, source⟩
  dsimp only
  split
  · exact selfDelimiting_pure _
  · exact selfDelimiting_pure _
  · exact selfDelimiting_throw _

/-- An instruction may be cut short, or be wrong by itself; a terminator without a block is wrong
whatever follows. -/
theorem refuses_next (p : Progress) : Refuses .truncatedBody codeKinds p.next := by
  have hinstruction : Refuses .unexpectedEnd codeKinds instruction :=
    refuses_instruction.mono fun _ => List.mem_cons_of_mem _
  have hcut : Refuses .truncatedBody codeKinds (mapEnd .truncatedBody instruction) :=
    hinstruction.mapEnd (fun _ => rfl) (by decide)
  refine refuses_position_bind fun start => hcut.withSource.bind
    (selfDelimiting_instruction.mapEnd _).withSource ?_
  rintro ⟨⟨opcode, immediate⟩, source⟩
  dsimp only
  split
  · exact refuses_pure _
  · exact refuses_pure _
  · exact refuses_throw List.mem_cons_self

theorem selfDelimiting_read : SelfDelimiting read := by
  intro c d e h
  obtain ⟨hd, hu⟩ := read_eq_ok h
  exact ⟨d.assemble, hu, fun rest => hd.reads rest c.position⟩

/-- A sequence is cut short, or something in it is wrong. -/
theorem refuses_read : Refuses .truncatedBody codeKinds read := by
  refine Refuses.whileUnread progresses_next selfDelimiting_next refuses_next ?_ _
  intro p c e d h
  rw [position_bind] at h
  obtain ⟨rfl, -⟩ := throw_eq_error_iff.1 h
  rfl

/-! ### Accepted code and what is cut off or added -/

/-- Accepted code is read in place as it is read by itself, and what follows is left. -/
theorem read_of_ofBytes (h : ofBytes code = .ok d) {c : Cursor} {rest : List UInt8}
    (hc : c.unread = code ++ rest) : read c = .ok d ⟨rest, c.position + code.length⟩ := by
  obtain ⟨hd, rfl⟩ := ofBytesAt_eq_ok_iff.1 h
  exact hd.reads.run hc

/-- A part of accepted code is not read as another sequence, because the whole would be read as that
one, with bytes left; and nothing in it is wrong, because that would be so of the whole. -/
theorem read_take_of_ofBytes (base : Nat) (h : ofBytes code = .ok d) {n : Nat}
    (hn : n < code.length) :
    ∃ p e, read ⟨code.take n, base⟩ = .error (.truncatedBody p) e := by
  have hwhole : read ⟨code.take n ++ code.drop n, base⟩ = .ok d ⟨[], base + code.length⟩ :=
    read_of_ofBytes h (by rw [List.take_append_drop, List.append_nil])
  cases hcut : read ⟨code.take n, base⟩ with
  | ok other e =>
      have hagain := selfDelimiting_read.append hcut (code.drop n)
      rw [hwhole] at hagain
      injection hagain with _ hend
      have hleft : code.drop n = [] :=
        List.append_eq_nil_iff.1 (congrArg Cursor.unread hend).symm |>.2
      rw [List.drop_eq_nil_iff] at hleft
      omega
  | error error e =>
      rcases refuses_read _ _ _ hcut with hkind | ⟨-, hlasts⟩
      · obtain ⟨p, rfl⟩ := Error.eq_truncatedBody_of_kind hkind
        exact ⟨p, e, rfl⟩
      · obtain ⟨_, hagain⟩ := hlasts (code.drop n)
        cases hwhole.symm.trans hagain

/-- A part of accepted code is refused as cut short, at an offset within it. -/
theorem ofBytesAt_take_of_ofBytes (h : ofBytes code = .ok d) {n : Nat} (hn : n < code.length) :
    ∃ p, ofBytesAt base (code.take n) = .error (.truncatedBody p) ∧ base ≤ p ∧ p ≤ base + n := by
  obtain ⟨p, e, hread⟩ := read_take_of_ofBytes base h hn
  have hcut : ofBytesAt base (code.take n) = .error (.truncatedBody p) :=
    answer_eq_error_iff.2 ⟨e, bind_eq_error_iff.2 (.inl hread)⟩
  have hplace := offset_mem_of_ofBytesAt hcut rfl
  rw [List.length_take_of_le (Nat.le_of_lt hn)] at hplace
  exact ⟨p, hcut, hplace⟩

/-- What follows accepted code is refused where the code ends. -/
theorem ofBytesAt_append_of_ofBytes (h : ofBytes code = .ok d) (b : UInt8) (rest : List UInt8) :
    ofBytesAt base (code ++ b :: rest) = .error
      (if b = 0x05 ∨ b = 0x0b then .unmatchedBlockEnd (base + code.length)
       else .trailingCode (base + code.length)) := by
  have hread : read ⟨code ++ b :: rest, base⟩ = .ok d ⟨b :: rest, base + code.length⟩ :=
    read_of_ofBytes h rfl
  have hterminator : (Opcode.plain b = .elseArm ∨ Opcode.plain b = .ending) ↔
      (b = 0x05 ∨ b = 0x0b) := by
    simp [Opcode.elseArm, Opcode.ending]
  refine answer_eq_error_iff.2 ⟨⟨b :: rest, base + code.length⟩, ?_⟩
  rw [bind_of_ok hread]
  refine bind_eq_error_iff.2 (.inl ?_)
  change (if Opcode.plain b = .elseArm ∨ Opcode.plain b = .ending then
      throw (.unmatchedBlockEnd (base + code.length))
    else throw (.trailingCode (base + code.length)) : Reader Unit) _ = _
  simp only [hterminator]
  split <;> rfl

/-- What is read in place is accepted by itself, and takes its own bytes. -/
theorem ofBytes_of_withSource_read {c e : Cursor} {source : List UInt8}
    (h : withSource read c = .ok (d, source) e) :
    c.unread = source ++ e.unread ∧ e.position = c.position + source.length ∧
      ofBytes source = .ok d := by
  obtain ⟨hread, hsource⟩ := withSource_eq_ok_iff.1 h
  obtain ⟨hd, hu⟩ := read_eq_ok hread
  have hp := hd.reads.position_eq hu hread
  obtain rfl : d.assemble = source := (take_unread hu hp).symm.trans hsource
  exact ⟨hu, hp, ofBytesAt_eq_ok_iff.2 ⟨hd, rfl⟩⟩

/-- Sequences of instructions delimit themselves. Accepted code is refused as cut short at every offset
but its end, and at its end if anything follows; and wherever it stands it is read in place as it is
read by itself. Nothing else is read in place. -/
theorem delimitation :
    (∀ code d, ofBytes code = .ok d →
      (∀ base n, n < code.length →
        ∃ p, ofBytesAt base (code.take n) = .error (.truncatedBody p) ∧
          base ≤ p ∧ p ≤ base + n) ∧
      (∀ base b rest, ofBytesAt base (code ++ b :: rest) = .error
        (if b = 0x05 ∨ b = 0x0b then .unmatchedBlockEnd (base + code.length)
         else .trailingCode (base + code.length))) ∧
      ∀ c rest, c.unread = code ++ rest →
        withSource read c = .ok (d, code) ⟨rest, c.position + code.length⟩) ∧
    ∀ c e d source, withSource read c = .ok (d, source) e →
      c.unread = source ++ e.unread ∧ e.position = c.position + source.length ∧
        ofBytes source = .ok d := by
  refine ⟨fun code d h => ⟨fun base n => ofBytesAt_take_of_ofBytes h,
    fun base => ofBytesAt_append_of_ofBytes h, fun c rest hc => ?_⟩,
    fun c e d source => ofBytes_of_withSource_read⟩
  exact withSource_eq_ok_iff.2 ⟨read_of_ofBytes h hc, take_unread hc rfl⟩

/-- A block with a padded constant and an `if` with both arms in it. -/
def branchingCode : List UInt8 :=
  [0x02, 0x40, 0x41, 0x81, 0x80, 0x00, 0x04, 0x40, 0x05, 0x0b, 0x0b, 0x0b]

/-- Without its last byte it has as many terminators as blocks, but none of its own. -/
theorem delimitation_branchingCode :
    ∃ d, ofBytes branchingCode = .ok d ∧
      (∃ p, ofBytesAt 7 (branchingCode.take 11) = .error (.truncatedBody p) ∧
        7 ≤ p ∧ p ≤ 7 + 11) ∧
      ofBytesAt 7 (branchingCode ++ 0x0b :: []) = .error (.unmatchedBlockEnd 19) ∧
      withSource read ⟨branchingCode ++ [0x01], 7⟩ = .ok (d, branchingCode) ⟨[0x01], 19⟩ ∧
      ofBytes branchingCode = .ok d := by
  have hok : (ofBytes branchingCode).toBool = true := by decide +kernel
  cases h : ofBytes branchingCode with
  | error e =>
      rw [h] at hok
      cases hok
  | ok d =>
      obtain ⟨hcut, hlonger, hplace⟩ := delimitation.1 branchingCode d h
      have hread := hplace ⟨branchingCode ++ [0x01], 7⟩ [0x01] rfl
      exact ⟨d, rfl, hcut 7 11 (by decide), hlonger 7 0x0b [], hread,
        h ▸ (delimitation.2 _ _ d branchingCode hread).2.2⟩

end WasmMeter.Disassembly
