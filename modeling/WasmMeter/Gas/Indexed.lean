import WasmMeter.Gas.Metering
import WasmMeter.Module.Index

/-!
Metering a module that remembers where its sections are. The steps are those of metering a list of
sections, but each looks up and changes contents in their slots.
-/
namespace WasmMeter.IndexedModule

/-- A metered module, and the index of the function that takes the charges. -/
structure Metered where
  module : IndexedModule
  gasFunction : UInt32

/-- Adds an empty type section in front of all others and an empty import section behind the types,
where the slot is empty. -/
def withAnchors (m : IndexedModule) : IndexedModule :=
  let m := if (m.index.slot? .types).isSome then m else m.insert 0 (.build ⟨.types, []⟩)
  if (m.index.slot? .imports).isSome then m
  else m.insert (((m.index.slot? .types).map (· + 1)).getD 0) (.build ⟨.imports, []⟩)

/-- The index of the first entry that is the signature of the import, which is added as the last
entry if it is missing. -/
def reserveType (m : IndexedModule) : IndexedModule × UInt32 :=
  let entries := m.typeEntries
  match entries.idxOf? Metering.gasType with
  | some index => (m, index.toUInt32)
  | none => (m.modify .types (· ++ [Metering.gasType]), entries.length.toUInt32)

/-- Adds the import as the last one. -/
def addImport (m : IndexedModule) (config : GasConfig) (typeIndex : UInt32) : IndexedModule :=
  m.modify .imports (· ++ [⟨config.moduleName, config.fieldName, .function typeIndex⟩])

/-- Replaces the contents of a kind by what `change` makes of them. They are changed only if they do
not stay the same. -/
def adjust (m : IndexedModule) (kind : SectionKind)
    (change : kind.Contents → Except Error kind.Contents) : Except Error IndexedModule := do
  match m.contents? kind with
  | none => return m
  | some contents =>
      let changed ← change contents
      return if changed = contents then m else m.modify kind fun _ => changed

/-- Replaces every reference to a function outside the code. -/
def mapReferences (f : UInt32 → UInt32) (m : IndexedModule) : Except Error IndexedModule := do
  let m ← m.adjust .exports fun entries => return entries.map (Export.mapReferences f)
  let m ← m.adjust .start fun function => return f function
  let m ← m.adjust .elements fun segments => segments.mapM (ElementSegment.mapReferences f)
  m.adjust .globals fun entries => entries.mapM (Global.mapReferences f)

/-- Meters every body. The code counts as changed even if there is no body. -/
def meterBodies (m : IndexedModule) (costs : CostModel) (gasFunction : UInt32) :
    Except Error IndexedModule := do
  match m.contents? .code with
  | none => throw .noCodeSection
  | some bodies =>
      let functions := m.functionCount
      let metered ← (Module.sites .body bodies).mapM fun (site, body) =>
        Metering.meterBody costs gasFunction functions site body
      return m.modify .code fun _ => metered

/-- Every use of a type as the signature of a function, with its site. -/
def typeReferences (m : IndexedModule) : List (Site × UInt32) :=
  (m.importEntries.filterMap fun entry =>
    entry.type.functionType?.map (.importEntry entry.moduleName entry.fieldName, ·))
    ++ Module.sites .declaration m.declarations

/-- Every reference to a function outside the code, with its site. -/
def functionReferences (m : IndexedModule) : Except Error (List (Site × UInt32)) := do
  let exported := m.exportEntries.filterMap fun entry =>
    entry.function?.map (.exportEntry entry.name, ·)
  let started := (m.contents? .start).toList.map (.start, ·)
  let segments ← (Module.sites .elementSegment m.elementSegments).mapM fun (site, segment) =>
    return (← segment.references).map (site, ·)
  let globals ← (Module.sites .globalInitializer m.globalEntries).mapM fun (site, entry) =>
    return (← entry.references).map (site, ·)
  return exported ++ started ++ segments.flatten ++ globals.flatten

/-- Refuses a module with a reference outside the code that does not resolve. -/
def check (m : IndexedModule) : Except Error Unit := do
  Metering.checkReferences .types m.typeEntries.length.toUInt32 m.typeReferences
  Metering.checkReferences .functions m.functionCount (← m.functionReferences)

/-- Adds the import, moves the references, meters the bodies, and makes sure that every index resolves
in the result. -/
def meter (m : IndexedModule) (config : GasConfig) (costs : CostModel) : Except Error Metered := do
  match m.contents? .code with
  | none => throw .noCodeSection
  | some bodies =>
      if m.declarations.length ≠ bodies.length then
        throw (.functionCountMismatch m.declarations.length bodies.length)
      let (typed, typeIndex) := m.withAnchors.reserveType
      let gasFunction := (typed.importedCount .function).toUInt32
      let extended := typed.addImport config typeIndex
      let moved ← extended.mapReferences (shift · gasFunction 1)
      let metered ← moved.meterBodies costs gasFunction
      metered.check
      return ⟨metered, gasFunction⟩

end WasmMeter.IndexedModule
