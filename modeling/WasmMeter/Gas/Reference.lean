import WasmMeter.Disassembly
import WasmMeter.Module.Functions

/-!
The places of a module that refer to functions: exports, the start function, element segments,
initializers of globals, and calls in bodies. For each there is the list of its references, in order,
and a way to replace them all. Constant expressions are disassembled on the way; that fails only for
bytes that are no expression.
-/
namespace WasmMeter

namespace ConstExpr

/-- The functions that the expression refers to. -/
def references (expression : ConstExpr) : Except Error (List UInt32) := do
  return (← Disassembly.ofBytes expression.bytes).references

def mapReferences (f : UInt32 → UInt32) (expression : ConstExpr) : Except Error ConstExpr := do
  return ⟨((← Disassembly.ofBytes expression.bytes).mapReferences f).assemble⟩

end ConstExpr

namespace ElementItems

def references : ElementItems → Except Error (List UInt32)
  | .indices functions => return functions
  | .expressions slots => return (← slots.mapM ConstExpr.references).flatten

def mapReferences (f : UInt32 → UInt32) : ElementItems → Except Error ElementItems
  | .indices functions => return .indices (functions.map f)
  | .expressions slots => return .expressions (← slots.mapM (ConstExpr.mapReferences f))

end ElementItems

namespace ElementSegment

/-- The functions that the items refer to; the offset of a segment is a number. -/
def references (segment : ElementSegment) : Except Error (List UInt32) := segment.items.references

def mapReferences (f : UInt32 → UInt32) (segment : ElementSegment) :
    Except Error ElementSegment := do
  return { segment with items := ← segment.items.mapReferences f }

end ElementSegment

namespace Global

def references (entry : Global) : Except Error (List UInt32) := entry.init.references

def mapReferences (f : UInt32 → UInt32) (entry : Global) : Except Error Global := do
  return { entry with init := ← entry.init.mapReferences f }

end Global

namespace Export

/-- The function that is exported, if it is one. -/
def function? (entry : Export) : Option UInt32 :=
  if entry.kind = .function then some entry.index else none

def mapReferences (f : UInt32 → UInt32) (entry : Export) : Export :=
  if entry.kind = .function then { entry with index := f entry.index } else entry

end Export

namespace Module

/-- Replaces the contents of the section of a kind by what `change` makes of them, if there is such a
section. A section whose contents stay the same does not count as changed. -/
def adjust (m : Module) (kind : SectionKind)
    (change : kind.Contents → Except Error kind.Contents) : Except Error Module := do
  match m.contents? kind with
  | none => return m
  | some contents =>
      let changed ← change contents
      return if changed = contents then m else m.modify kind fun _ => changed

/-- Replaces every reference to a function outside the code. -/
def mapReferences (f : UInt32 → UInt32) (m : Module) : Except Error Module := do
  let m ← m.adjust .exports fun entries => return entries.map (Export.mapReferences f)
  let m ← m.adjust .start fun function => return f function
  let m ← m.adjust .elements fun segments => segments.mapM (ElementSegment.mapReferences f)
  m.adjust .globals fun entries => entries.mapM (Global.mapReferences f)

/-- Entries with the sites they stand for. -/
def sites {α : Type} (site : Nat → Site) (entries : List α) : List (Site × α) :=
  entries.zipIdx.map fun (entry, number) => (site number, entry)

/-- Every use of a type as the signature of a function, with its site. -/
def typeReferences (m : Module) : List (Site × UInt32) :=
  (m.importEntries.filterMap fun entry =>
    entry.type.functionType?.map (.importEntry entry.moduleName entry.fieldName, ·))
    ++ sites .declaration m.declarations

/-- Every reference to a function outside the code, with its site. -/
def functionReferences (m : Module) : Except Error (List (Site × UInt32)) := do
  let exported := m.exportEntries.filterMap fun entry =>
    entry.function?.map (.exportEntry entry.name, ·)
  let started := (m.contents? .start).toList.map (.start, ·)
  let segments ← (sites .elementSegment m.elementSegments).mapM fun (site, segment) =>
    return (← segment.references).map (site, ·)
  let globals ← (sites .globalInitializer m.globalEntries).mapM fun (site, entry) =>
    return (← entry.references).map (site, ·)
  return exported ++ started ++ segments.flatten ++ globals.flatten

end Module

end WasmMeter
