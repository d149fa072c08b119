import WasmMeter.Gas.Cost
import WasmMeter.Gas.Reference
import WasmMeter.Gas.Shift
import WasmMeter.Module.Read

/-!
Metering. A metered module imports one function more, which takes a charge and returns nothing, and
every body calls it first. The import is the last one, so it takes the index behind the imported
functions, and every function from that index on moves up by one; so does every reference to it.
-/
namespace WasmMeter

/-- A metered module, and the index of the function that takes the charges. -/
structure Metered where
  module : Module
  gasFunction : UInt32
deriving DecidableEq

namespace Metering

/-- The signature of the metering import: one 32-bit integer and no result. -/
def gasType : FunctionType := .new [.i32] []

/-- Refuses the first reference that does not resolve among `length` entries. -/
def checkReferences (space : IndexSpace) (length : UInt32) :
    List (Site × UInt32) → Except Error Unit
  | [] => return
  | (site, index) :: rest =>
      if index < length then checkReferences space length rest
      else throw (.indexOutOfRange space index length site)

/-- Adds an empty type section in front of all others and an empty import section behind the types,
where there is none. -/
def withAnchors (m : Module) : Module :=
  let m := if (m.position? .types).isSome then m else m.insert 0 (.build ⟨.types, []⟩)
  if (m.position? .imports).isSome then m
  else m.insert (((m.position? .types).map (· + 1)).getD 0) (.build ⟨.imports, []⟩)

/-- The index of the first entry that is the signature of the import, which is added as the last
entry if it is missing. -/
def reserveType (m : Module) : Module × UInt32 :=
  let entries := m.typeEntries
  match entries.idxOf? gasType with
  | some index => (m, index.toUInt32)
  | none => (m.modify .types (· ++ [gasType]), entries.length.toUInt32)

/-- Adds the import as the last one. -/
def addImport (m : Module) (config : GasConfig) (typeIndex : UInt32) : Module :=
  m.modify .imports (· ++ [⟨config.moduleName, config.fieldName, .function typeIndex⟩])

/-- The instructions with which a body pays its charge. -/
def prologue (charge : Int32) (gasFunction : UInt32) : List Instruction :=
  [.i32Const charge, .call gasFunction]

/-- Moves the references of a body and lets it pay what its instructions cost; `functions` is the
number of functions the references have to resolve among. -/
def meterBody (costs : CostModel) (gasFunction functions : UInt32) (site : Site)
    (body : FunctionBody) : Except Error FunctionBody := do
  let before ← Disassembly.ofBytesAt body.codeOffset body.code
  let moved := before.mapReferences (shift · gasFunction 1)
  checkReferences .functions functions (moved.references.map (site, ·))
  let charge := costs.charge before.instructions
  return { body with code := (moved.prepend (prologue charge gasFunction)).assemble }

/-- Meters every body. The code counts as changed even if there is no body. -/
def meterBodies (m : Module) (costs : CostModel) (gasFunction : UInt32) : Except Error Module := do
  match m.contents? .code with
  | none => throw .noCodeSection
  | some bodies =>
      let functions := m.functionCount
      let metered ← (Module.sites .body bodies).mapM fun (site, body) =>
        meterBody costs gasFunction functions site body
      return m.modify .code fun _ => metered

/-- Refuses a module with a reference outside the code that does not resolve. -/
def checkModule (m : Module) : Except Error Unit := do
  checkReferences .types m.typeEntries.length.toUInt32 m.typeReferences
  checkReferences .functions m.functionCount (← m.functionReferences)

end Metering

open Metering in
/-- Meters a module: adds the import, moves the references, meters the bodies, and makes sure that
every index resolves in the result. -/
def Module.meter (m : Module) (config : GasConfig) (costs : CostModel) : Except Error Metered := do
  match m.contents? .code with
  | none => throw .noCodeSection
  | some bodies =>
      if m.declarations.length ≠ bodies.length then
        throw (.functionCountMismatch m.declarations.length bodies.length)
      let (typed, typeIndex) := reserveType (withAnchors m)
      let gasFunction := (typed.importedCount .function).toUInt32
      let extended := addImport typed config typeIndex
      let moved ← extended.mapReferences (shift · gasFunction 1)
      let metered ← meterBodies moved costs gasFunction
      checkModule metered
      return ⟨metered, gasFunction⟩

/-- Meters a binary module as a configuration says. The result is read once more, so that only a
module that can be read is given out. -/
def addGas (bytes : List UInt8) (config : GasConfig) : Except Error (List UInt8) := do
  let m ← Module.ofBytes bytes
  let metered ← m.meter config config.costModel
  let result := metered.module.toBytes
  let _ ← Module.ofBytes result
  return result

end WasmMeter
