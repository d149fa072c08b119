import WasmMeter.Section.Kind

/-!
Modules. A module is the list of its sections, each with its contents and, if it was read, the bytes
it was read from. There may be several sections of one kind; the last of them counts.
-/
namespace WasmMeter

/-- Where a section comes from: built in memory, or read, with the bounds of its contents in the
input and all of its bytes. The bytes of a section that was read hold until it is changed. -/
inductive Origin where
  | built
  | read (first last : Nat) (bytes : List UInt8) (isChanged : Bool)
deriving DecidableEq, Repr

structure Section where
  payload : Payload
  origin : Origin
deriving DecidableEq

namespace Section

/-- A section that was not read from anywhere. -/
def build (payload : Payload) : Section := ⟨payload, .built⟩

def kind (s : Section) : SectionKind := s.payload.kind

/-- The offsets of the first byte of the contents and of the first byte behind them. -/
def bounds? (s : Section) : Option (Nat × Nat) :=
  match s.origin with
  | .built => none
  | .read first last _ _ => some (first, last)

/-- The bytes the section was read from, with its header. -/
def source (s : Section) : List UInt8 :=
  match s.origin with
  | .built => []
  | .read _ _ bytes _ => bytes

/-- Has the section to be written from its contents? -/
def isChanged (s : Section) : Bool :=
  match s.origin with
  | .built => true
  | .read _ _ _ isChanged => isChanged

/-- The section with other contents, of any kind. It counts as changed whatever they are. -/
def setPayload (s : Section) (payload : Payload) : Section :=
  ⟨payload,
    match s.origin with
    | .built => .built
    | .read first last bytes _ => .read first last bytes true⟩

end Section

structure Module where
  sections : List Section
deriving DecidableEq

namespace Module

/-- The version of the binary format. -/
def version : UInt32 := 1

/-- The positions of the sections of a kind, in ascending order. -/
def positions (m : Module) (kind : SectionKind) : List Nat :=
  (m.sections.zipIdx.filter fun (s, _) => s.kind = kind).map (·.2)

/-- The position of the section of a kind that counts. -/
def position? (m : Module) (kind : SectionKind) : Option Nat := (m.positions kind).getLast?

/-- The contents of the section of a kind. -/
def contents? (m : Module) (kind : SectionKind) : Option kind.Contents := do
  let position ← m.position? kind
  let s ← m.sections[position]?
  s.payload.contents? kind

/-- The entries of a kind whose contents are a list; none if there is no section. -/
abbrev typeEntries (m : Module) : List FunctionType := (m.contents? .types).getD []

abbrev importEntries (m : Module) : List Import := (m.contents? .imports).getD []

/-- The type indices of the functions that the module defines. -/
abbrev declarations (m : Module) : List UInt32 := (m.contents? .functions).getD []

abbrev exportEntries (m : Module) : List Export := (m.contents? .exports).getD []

abbrev elementSegments (m : Module) : List ElementSegment := (m.contents? .elements).getD []

abbrev globalEntries (m : Module) : List Global := (m.contents? .globals).getD []

/-- Changes the contents of the section of a kind, which counts as changed from then on. Without such
a section nothing happens. -/
def modify (m : Module) (kind : SectionKind) (change : kind.Contents → kind.Contents) : Module :=
  match m.position? kind with
  | some position =>
      ⟨m.sections.modify position fun s => s.setPayload (s.payload.modify kind change)⟩
  | none => m

/-- Puts a section in front of the one at a position. -/
def insert (m : Module) (position : Nat) (s : Section) : Module :=
  ⟨m.sections.take position ++ s :: m.sections.drop position⟩

/-- Like `insert`, at a position within the list or at its end only. -/
def insert? (m : Module) (position : Nat) (s : Section) : Option Module :=
  if position ≤ m.sections.length then some (m.insert position s) else none

/-- The custom sections, in order. -/
def customs (m : Module) : List CustomSection :=
  m.sections.filterMap (·.payload.contents? .custom)

/-- The first custom section of a name. -/
def custom? (m : Module) (name : String) : Option CustomSection :=
  m.customs.find? (·.name = name)

/-- The first export of a name. -/
def export? (m : Module) (name : String) : Option Export :=
  m.exportEntries.find? (·.name = name)

/-- The number of imports of a kind. -/
def importedCount (m : Module) (kind : ExternalKind) : Nat :=
  m.importEntries.countP (·.type.kind = kind)

end Module

end WasmMeter
