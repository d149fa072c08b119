import WasmMeter.Module.Functions
import WasmMeter.Module.Read

/-!
Modules that remember where their sections are. Everything is looked up and changed at the remembered
positions; a section that is put in makes the module look for all of them again, and a change of
contents leaves them as they are.
-/
namespace WasmMeter

/-- Where sections stand: for each kind other than custom ones the position of the section that
counts, if there is one, and the positions of all custom sections. -/
structure SectionIndex where
  slot? : SectionKind → Option Nat
  customs : List Nat

namespace SectionIndex

def empty : SectionIndex := ⟨fun _ => none, []⟩

/-- Enters a section that stands at a position. It takes the slot of its kind from any section before
it; custom sections have no slot and are all kept. -/
def enter (index : SectionIndex) (kind : SectionKind) (position : Nat) : SectionIndex :=
  if kind = .custom then { index with customs := index.customs ++ [position] }
  else { index with
    slot? := fun other => if other = kind then some position else index.slot? other }

/-- Enters all sections in order. -/
def build (sections : List Section) : SectionIndex :=
  sections.zipIdx.foldl (fun index entry => index.enter entry.1.kind entry.2) empty

end SectionIndex

/-- What comes of looking up contents at a remembered position. The last two mean that the position
is wrong: behind the last section, or at a section of another kind. -/
inductive Lookup (α : Type) where
  | found (contents : α)
  | absent
  | outside
  | otherKind
deriving DecidableEq, Repr

def Lookup.contents? {α : Type} : Lookup α → Option α
  | found contents => some contents
  | _ => none

/-- A module and the positions of its sections. -/
structure IndexedModule extends Module where
  index : SectionIndex

namespace IndexedModule

/-- A module of any sections, in any order. -/
def new (sections : List Section) : IndexedModule := ⟨⟨sections⟩, .build sections⟩

def ofBytes (bytes : List UInt8) : Except Error IndexedModule := do
  return new (← Module.ofBytes bytes).sections

/-- Looks up the contents of a kind in its slot. -/
def lookup (m : IndexedModule) (kind : SectionKind) : Lookup kind.Contents :=
  match m.index.slot? kind with
  | none => .absent
  | some position =>
      match m.sections[position]? with
      | none => .outside
      | some s =>
          match s.payload.contents? kind with
          | some contents => .found contents
          | none => .otherKind

def contents? (m : IndexedModule) (kind : SectionKind) : Option kind.Contents :=
  (m.lookup kind).contents?

abbrev typeEntries (m : IndexedModule) : List FunctionType := (m.contents? .types).getD []

abbrev importEntries (m : IndexedModule) : List Import := (m.contents? .imports).getD []

abbrev declarations (m : IndexedModule) : List UInt32 := (m.contents? .functions).getD []

abbrev exportEntries (m : IndexedModule) : List Export := (m.contents? .exports).getD []

abbrev elementSegments (m : IndexedModule) : List ElementSegment := (m.contents? .elements).getD []

abbrev globalEntries (m : IndexedModule) : List Global := (m.contents? .globals).getD []

/-- Changes contents in their slot. The section there counts as changed even if its contents are of
another kind, in which case they stay. -/
def modify (m : IndexedModule) (kind : SectionKind) (change : kind.Contents → kind.Contents) :
    IndexedModule :=
  match m.index.slot? kind with
  | some position =>
      { m with sections :=
          m.sections.modify position fun s => s.setPayload (s.payload.modify kind change) }
  | none => m

/-- Puts a section in front of the one at a position, and looks for all sections again. -/
def insert (m : IndexedModule) (position : Nat) (s : Section) : IndexedModule :=
  new (m.toModule.insert position s).sections

/-- Like `insert`, at a position within the list or at its end only. -/
def insert? (m : IndexedModule) (position : Nat) (s : Section) : Option IndexedModule :=
  if position ≤ m.sections.length then some (m.insert position s) else none

/-- The custom sections at the remembered positions. -/
def customs (m : IndexedModule) : List CustomSection :=
  m.index.customs.filterMap fun position => do
    (← m.sections[position]?).payload.contents? .custom

/-- The first custom section of a name. -/
def custom? (m : IndexedModule) (name : String) : Option CustomSection :=
  m.customs.find? (·.name = name)

/-- The first export of a name. -/
def export? (m : IndexedModule) (name : String) : Option Export :=
  m.exportEntries.find? (·.name = name)

/-- The number of imports of a kind. -/
def importedCount (m : IndexedModule) (kind : ExternalKind) : Nat :=
  m.importEntries.countP (·.type.kind = kind)

/-- Every function, by its index. -/
def functionSpace (m : IndexedModule) : List FunctionRef :=
  Module.importedFunctions m.importEntries ++ Module.definedFunctions m.declarations

/-- The number of functions, imported and defined, in 32 bits. -/
def functionCount (m : IndexedModule) : UInt32 :=
  (m.importedCount .function).toUInt32 + m.declarations.length.toUInt32

/-- The signature of the function with an index. -/
def functionType? (m : IndexedModule) (function : Nat) : Option FunctionType := do
  let ref ← m.functionSpace[function]?
  (← m.contents? .types)[ref.typeIndex.toNat]?

end IndexedModule

end WasmMeter
