import WasmMeter.Module.Write
import WasmMeter.Section.Read

/-!
Reading a module: the header, then sections up to the end of the input. A section gives its length,
and its contents have to fill it. The sections other than custom ones stand in the order of their
ranks, so there is at most one of a kind.
-/
namespace WasmMeter

namespace Module

/-- The sections read so far, last one first, and the rank of the last one that has a rank. -/
structure Progress where
  done : List Section
  rank : Option Nat

/-- The rank after a section of a kind, unless that kind may not follow. -/
def nextRank? (rank : Option Nat) (kind : SectionKind) : Option (Option Nat) :=
  match rank, kind.rank? with
  | _, none => some rank
  | none, some r => some (some r)
  | some last, some r => if last < r then some (some r) else none

end Module

namespace Reader

/-- The kind of a section. -/
def sectionKind : Reader SectionKind := do
  let start ← position
  let id ← byte
  match SectionKind.ofByte? id with
  | some kind => return kind
  | none => throw (.malformedSection id start .unknownId)

/-- The contents of a section, with their bounds. They are read within the declared length and have to
reach its end. -/
def sectionContents (kind : SectionKind) : Reader (Payload × Nat × Nat) := do
  let size ← mapEnd (kind.malformed .missingSize) uint32
  let first ← position
  let inside ←
    mapEnd (fun _ => kind.malformed (.sizeExceedsInput size.toNat) first) (window size.toNat)
  let (payload, rest) ← within inside (mapEnd (kind.malformed .contentsCut) (payload kind))
  if !rest.isEmpty then throw (kind.malformed (.unreadBytes rest.remaining) rest.position)
  return (payload, first, ← position)

/-- Reads one more section. -/
def nextSection (p : Module.Progress) : Reader Module.Progress := do
  let start ← position
  let (((payload, first, last), rank), source) ← withSource do
    let kind ← sectionKind
    match Module.nextRank? p.rank kind with
    | some rank => return (← sectionContents kind, rank)
    | none => throw (kind.malformed .outOfOrder start)
  return ⟨⟨payload, .read first last source false⟩ :: p.done, rank⟩

/-- The magic number and the version. -/
def header : Reader Unit := do
  let found ← take 4
  if found ≠ Module.magic then throw (.badMagic found)
  let version ← word 4
  if version ≠ Module.version.toNat then throw (.unsupportedVersion version.toUInt32)

def module : Reader Module := do
  header
  whileUnread (Sum.inl <$> nextSection ·) (fun p => return ⟨p.done.reverse⟩) ⟨[], none⟩

end Reader

/-- The module that some bytes hold. -/
def Module.ofBytes (bytes : List UInt8) : Except Error Module :=
  Reader.module.answer (.ofBytes bytes)

end WasmMeter
