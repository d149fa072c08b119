import WasmMeter.Proofs.Metering.Insertion

/-!
What metering makes of a body, byte for byte. A body first pays its charge, and then every
instruction stands as it was read, except for the references that move: these are an opcode and an
index in its shortest form.
-/
namespace WasmMeter

/-- What is written for an instruction once every function from `point` on has moved up by one. -/
def Instruction.movedBytes (point : UInt32) (instruction : Instruction) : List UInt8 :=
  match instruction.function? with
  | none => instruction.toBytes
  | some function =>
      if function < point then instruction.toBytes
      else instruction.opcode.toBytes ++ Leb128.ofNat (function.toNat + 1)

namespace Instruction

variable {instruction : Instruction} {point limit : UInt32}

/-- Moving the function index of an instruction writes the moved bytes, since an index below the limit
is not lost to wrapping. -/
theorem toBytes_mapFunction_shift
    (h : ∀ function, instruction.function? = some function → shift function point 1 < limit) :
    (instruction.mapFunction (shift · point 1)).toBytes = instruction.movedBytes point := by
  unfold mapFunction movedBytes
  cases hf : instruction.function? with
  | none => rfl
  | some function =>
      obtain ⟨himmediate, -⟩ := opcode_of_function? hf
      by_cases hlt : function < point
      · dsimp only
        rw [if_pos hlt, shift_of_lt hlt, ← himmediate, withImmediate_self]
      · have hmoved := toNat_shift_of_shift_lt (UInt32.not_lt.1 hlt) (h function hf)
        have hne : instruction.immediate ≠ .index (shift function point 1) := by
          rw [himmediate]
          intro heq
          rw [← Immediate.index.inj heq] at hmoved
          omega
        dsimp only
        rw [if_neg hlt, toBytes_withImmediate_of_ne hne, ← hmoved]
        rfl

end Instruction

open Metering

variable {costs : CostModel} {gasFunction functions : UInt32} {body metered : FunctionBody}

theorem Disassembly.assemble_mapReferences_shift {d : Disassembly}
    (h : ∀ function ∈ d.references, shift function gasFunction 1 < functions) :
    (d.mapReferences (shift · gasFunction 1)).assemble =
      d.instructions.flatMap (Instruction.movedBytes gasFunction) := by
  rw [assemble, mapReferences, List.flatMap_map]
  refine List.flatMap_congr fun instruction hi => ?_
  have hresolve : ∀ function, instruction.function? = some function →
      shift function gasFunction 1 < functions := fun function hf =>
    h function (List.mem_filterMap.2 ⟨instruction, hi, hf⟩)
  exact Instruction.toBytes_mapFunction_shift hresolve

namespace Metering.BodyMetered

/-- A body that was metered is a sequence of instructions, wherever it stands. -/
theorem isRead (h : BodyMetered costs gasFunction functions body metered) :
    ∃ d, (∀ base, Disassembly.ofBytesAt base body.code = .ok d) ∧ d.IsRead ∧
      d.assemble = body.code ∧
      metered.code = 0x41 :: Leb128.ofInt (costs.charge d.instructions).toInt ++
        0x10 :: Leb128.ofNat gasFunction.toNat ++
        d.instructions.flatMap (Instruction.movedBytes gasFunction) := by
  obtain ⟨d, hd, hresolve, hcode⟩ := h.disassembled
  obtain ⟨hread, hassemble⟩ := Disassembly.ofBytesAt_eq_ok_iff.1 hd
  have hanywhere : ∀ base, Disassembly.ofBytesAt base body.code = .ok d := fun base =>
    Disassembly.ofBytesAt_eq_ok_iff.2 ⟨hread, hassemble⟩
  refine ⟨d, hanywhere, hread, hassemble, ?_⟩
  rw [hcode, Disassembly.assemble_prepend, Disassembly.assemble_mapReferences_shift hresolve]
  have hprologue : (prologue (costs.charge d.instructions) gasFunction).flatMap
      Instruction.toBytes = 0x41 :: Leb128.ofInt (costs.charge d.instructions).toInt ++
        0x10 :: Leb128.ofNat gasFunction.toNat := by
    rw [prologue, List.flatMap_cons, List.flatMap_singleton]
    rfl
  rw [hprologue]

end Metering.BodyMetered

variable {m : Module} {config : GasConfig} {result : Metered}

/-- Metering rewrites every body by itself. The constant is what the instructions cost as they were
read, the call is to the metering import, and behind them every instruction keeps its own bytes
unless it refers to a function that moves. -/
theorem Module.bodies_of_meter (h : m.meter config costs = .ok result) :
    ∃ bodies metered, m.contents? .code = some bodies ∧
      result.module.contents? .code = some metered ∧
      List.Forall₂ (fun body after => after.locals = body.locals ∧
        ∃ d, (∀ base, Disassembly.ofBytesAt base body.code = .ok d) ∧ d.IsRead ∧
          d.assemble = body.code ∧
          after.code = 0x41 :: Leb128.ofInt (costs.charge d.instructions).toInt ++
            0x10 :: Leb128.ofNat m.insertionPoint.toNat ++
            d.instructions.flatMap (Instruction.movedBytes m.insertionPoint))
        bodies metered := by
  obtain ⟨bodies, metered, hbodies, hmetered, hall⟩ := (outcome_of_meter h).code
  refine ⟨bodies, metered, hbodies, hmetered, hall.imp fun body after hbody => ?_⟩
  exact ⟨hbody.locals, hbody.isRead⟩

theorem Module.bodies_of_meter_sample :
    ∃ result, sample.meter .standard (.perInstruction 3) = .ok result ∧
      ∃ bodies metered, sample.contents? .code = some bodies ∧
        result.module.contents? .code = some metered ∧
        List.Forall₂ (fun body after => after.locals = body.locals ∧
          ∃ d, (∀ base, Disassembly.ofBytesAt base body.code = .ok d) ∧ d.IsRead ∧
            d.assemble = body.code ∧
            after.code = 0x41 :: Leb128.ofInt
                ((CostModel.perInstruction 3).charge d.instructions).toInt ++
              0x10 :: Leb128.ofNat sample.insertionPoint.toNat ++
              d.instructions.flatMap (Instruction.movedBytes sample.insertionPoint))
          bodies metered := by
  have hok : (sample.meter .standard (.perInstruction 3)).isOk = true := by decide +kernel
  cases h : sample.meter .standard (.perInstruction 3) with
  | error e => rw [h] at hok; cases hok
  | ok result => exact ⟨result, rfl, bodies_of_meter h⟩

end WasmMeter
