import WasmMeter.Proofs.Metering.Outcome
import WasmMeter.Proofs.Module.FunctionSpace

/-!
Where the metering import goes. It is the last of all imports, the function behind the imported
functions, and its type is the first entry with its signature; these three positions are counted
differently, and all three are those of the module before anything was put in.
-/
namespace WasmMeter

open Metering

variable {m other : Module} {config : GasConfig} {costs : CostModel} {result : Metered}

namespace Metering.Rewritten

/-- The signature is among the types, and the new import refers to it. -/
theorem entries (h : Rewritten m config costs other) :
    ∃ position, Reserves gasType m.typeEntries other.typeEntries position ∧
      other.importEntries = m.importEntries ++ [gasImport config position.toUInt32] := by
  obtain ⟨types, position, hreserves, htypes, himports⟩ := h.typesAndImports
  have hentries : other.typeEntries = types := by
    rw [Module.typeEntries, htypes, Option.getD_some]
  refine ⟨position, hentries ▸ hreserves, ?_⟩
  rw [Module.importEntries, himports, Option.getD_some]

/-- The gas import is appended to the imports that were there. -/
theorem importEntries (h : Rewritten m config costs other) :
    ∃ typeIndex, other.importEntries =
      m.importEntries ++ [gasImport config typeIndex] := by
  obtain ⟨position, -, himports⟩ := h.entries
  exact ⟨position.toUInt32, himports⟩

theorem declarations (h : Rewritten m config costs other) :
    other.declarations = m.declarations := by
  rw [Module.declarations, h.untouched _ (by decide)]

end Metering.Rewritten

theorem Module.toNat_insertionPoint_le (m : Module) :
    m.insertionPoint.toNat ≤ m.functionSpace.length := by
  rw [insertionPoint, UInt32.toNat_ofNat', length_functionSpace]
  exact Nat.le_trans (Nat.mod_le _ _) (Nat.le_add_right _ _)

/-- Below the width of an index, the insertion point is the number of imported functions. -/
theorem Module.toNat_insertionPoint (m : Module) (h : m.functionSpace.length < 2 ^ 32) :
    m.insertionPoint.toNat = m.importedCount .function := by
  rw [length_functionSpace] at h
  exact UInt32.toNat_ofNat_of_lt' (show m.importedCount .function < 2 ^ 32 by omega)

/-- Metering adds one signature at most and one import. The function of the import takes the index
of the first function that is not imported, and all others keep their order. -/
theorem Module.insertion_of_meter (h : m.meter config costs = .ok result) :
    result.gasFunction = (m.importedCount .function).toUInt32 ∧
      ∃ types position, Reserves (.new [.i32] []) m.typeEntries types position ∧
        result.module.contents? .types = some types ∧
        result.module.contents? .imports = some (m.importEntries ++
          [⟨config.moduleName, config.fieldName, .function position.toUInt32⟩]) ∧
        result.module.functionSpace = m.functionSpace.take (m.importedCount .function) ++
          .imported m.importEntries.length position.toUInt32 ::
            m.functionSpace.drop (m.importedCount .function) := by
  have hout := outcome_of_meter h
  obtain ⟨types, position, hreserves, htypes, himports⟩ := hout.typesAndImports
  have hentries : result.module.importEntries = m.importEntries ++
      [⟨config.moduleName, config.fieldName, .function position.toUInt32⟩] := by
    rw [importEntries, himports, Option.getD_some]
    rfl
  exact ⟨hout.gasFunction, types, position, hreserves, htypes, himports,
    functionSpace_of_import hentries hout.declarations⟩

/-- A module that refers to its functions from every kind of place: two are imported behind a memory
and two defined, and one of the references is longer than it has to be. -/
def Module.sample : Module := ⟨[
  .build ⟨.types, [.new [] [], .new [.i32] []]⟩,
  .build ⟨.imports, [⟨"env", "memory", .memory ⟨0, 1, none⟩⟩, ⟨"env", "log", .function 1⟩,
    ⟨"env", "exit", .function 0⟩]⟩,
  .build ⟨.functions, [0, 0]⟩,
  .build ⟨.globals, [⟨⟨.funcref, false⟩, ⟨[0xd2, 0x02, 0x0b]⟩⟩]⟩,
  .build ⟨.exports, [⟨"memory", .memory, 0⟩, ⟨"run", .function, 2⟩, ⟨"log", .function, 0⟩]⟩,
  .build ⟨.start, 3⟩,
  .build ⟨.elements, [⟨1, 0, none, some 0, .indices [0, 3]⟩,
    ⟨5, 0, none, some 0x70, .expressions [⟨[0xd2, 0x82, 0x00, 0x0b]⟩, ⟨[0xd0, 0x70, 0x0b]⟩]⟩]⟩,
  .build ⟨.code, [
    ⟨[], [0x02, 0x40, 0x10, 0x01, 0x10, 0x83, 0x00, 0x0b, 0x0b], 0⟩,
    ⟨[(1, .i32)], [0x10, 0x02, 0x0b], 0⟩]⟩]⟩

theorem Module.insertion_of_meter_sample :
    ∃ result, sample.meter .standard (.constant 1) = .ok result ∧
      result.gasFunction = 2 ∧
      ∃ types position, Reserves (.new [.i32] []) sample.typeEntries types position ∧
        result.module.contents? .types = some types ∧
        result.module.contents? .imports = some (sample.importEntries ++
          [⟨"env", "addgas", .function position.toUInt32⟩]) ∧
        result.module.functionSpace = sample.functionSpace.take 2 ++
          .imported 3 position.toUInt32 :: sample.functionSpace.drop 2 := by
  have hok : (sample.meter .standard (.constant 1)).isOk = true := by decide +kernel
  cases h : sample.meter .standard (.constant 1) with
  | error e => rw [h] at hok; cases hok
  | ok result => exact ⟨result, rfl, insertion_of_meter h⟩

end WasmMeter
