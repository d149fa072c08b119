import WasmMeter.Entity

/-!
The kinds of sections, and what a section of each kind holds.
-/
namespace WasmMeter

inductive SectionKind where
  | custom
  | types
  | imports
  | functions
  | tables
  | memories
  | globals
  | exports
  | start
  | elements
  | code
  | data
  | dataCount
deriving DecidableEq, Repr

namespace SectionKind

def toByte : SectionKind → UInt8
  | custom => 0
  | types => 1
  | imports => 2
  | functions => 3
  | tables => 4
  | memories => 5
  | globals => 6
  | exports => 7
  | start => 8
  | elements => 9
  | code => 10
  | data => 11
  | dataCount => 12

def ofByte? : UInt8 → Option SectionKind
  | 0 => some custom
  | 1 => some types
  | 2 => some imports
  | 3 => some functions
  | 4 => some tables
  | 5 => some memories
  | 6 => some globals
  | 7 => some exports
  | 8 => some start
  | 9 => some elements
  | 10 => some code
  | 11 => some data
  | 12 => some dataCount
  | _ => none

/-- The place of a kind in the order of sections. The data count comes between the elements and the
code; a custom section may stand anywhere. -/
def rank? : SectionKind → Option Nat
  | custom => none
  | dataCount => some 10
  | code => some 11
  | data => some 12
  | kind => some kind.toByte.toNat

/-- What a section of a kind holds. -/
@[reducible]
def Contents : SectionKind → Type
  | custom => CustomSection
  | types => List FunctionType
  | imports => List Import
  | functions => List UInt32
  | tables => List TableType
  | memories => List Limits
  | globals => List Global
  | exports => List Export
  | start => UInt32
  | elements => List ElementSegment
  | code => List FunctionBody
  | data => List DataSegment
  | dataCount => UInt32

instance : (kind : SectionKind) → DecidableEq kind.Contents
  | custom => inferInstanceAs (DecidableEq CustomSection)
  | types => inferInstanceAs (DecidableEq (List FunctionType))
  | imports => inferInstanceAs (DecidableEq (List Import))
  | functions => inferInstanceAs (DecidableEq (List UInt32))
  | tables => inferInstanceAs (DecidableEq (List TableType))
  | memories => inferInstanceAs (DecidableEq (List Limits))
  | globals => inferInstanceAs (DecidableEq (List Global))
  | exports => inferInstanceAs (DecidableEq (List Export))
  | start => inferInstanceAs (DecidableEq UInt32)
  | elements => inferInstanceAs (DecidableEq (List ElementSegment))
  | code => inferInstanceAs (DecidableEq (List FunctionBody))
  | data => inferInstanceAs (DecidableEq (List DataSegment))
  | dataCount => inferInstanceAs (DecidableEq UInt32)

/-- Every kind is read from the byte it is written as. -/
theorem ofByte?_toByte (kind : SectionKind) : ofByte? kind.toByte = some kind := by
  cases kind <;> rfl

/-- No two kinds are written as the same byte. -/
theorem toByte_inj {kind kind' : SectionKind} (h : kind.toByte = kind'.toByte) : kind = kind' := by
  have hfound := ofByte?_toByte kind
  rw [h, ofByte?_toByte] at hfound
  exact (Option.some.inj hfound).symm

end SectionKind

/-- The contents of a section together with their kind. -/
structure Payload where
  kind : SectionKind
  contents : kind.Contents
deriving DecidableEq

namespace Payload

/-- The contents, if they are of the given kind. -/
def contents? (kind : SectionKind) (payload : Payload) : Option kind.Contents :=
  if h : payload.kind = kind then some (h ▸ payload.contents) else none

/-- Changes contents of the given kind and leaves others alone. -/
def modify (kind : SectionKind) (change : kind.Contents → kind.Contents) (payload : Payload) :
    Payload :=
  if h : payload.kind = kind then ⟨kind, change (h ▸ payload.contents)⟩ else payload

@[simp] theorem contents?_mk (kind : SectionKind) (contents : kind.Contents) :
    contents? kind ⟨kind, contents⟩ = some contents := by
  simp [contents?]

@[simp] theorem modify_mk (kind : SectionKind) (change : kind.Contents → kind.Contents)
    (contents : kind.Contents) :
    modify kind change ⟨kind, contents⟩ = ⟨kind, change contents⟩ := by
  simp [modify]

/-- A payload has no contents of a kind other than its own. -/
theorem contents?_eq_none {kind : SectionKind} {payload : Payload} (h : payload.kind ≠ kind) :
    contents? kind payload = none := by
  simp [contents?, h]

end Payload

end WasmMeter
