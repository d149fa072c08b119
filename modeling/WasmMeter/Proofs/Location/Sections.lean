import WasmMeter.Proofs.Location.Instruction
import WasmMeter.Proofs.Reading.Contents

/-!
Where errors in sections are. A flaw is found at the value at fault or at the end of what was read,
and both are offsets of the input although the contents of a section, a body in it and an expression
are read within cursors of their own.
-/
namespace WasmMeter

open Reader

variable {input : List UInt8} {base : Nat}

namespace Reader

/-! ### Entries -/

/-- What flags may leave out. -/
theorem Locates.option {α : Type} {r : Reader α} {P : α → Prop} (hr : Locates input base r P)
    (condition : Prop) [Decidable condition] :
    Locates input base (if condition then some <$> r else pure none) fun _ => True :=
  (hr.map fun _ _ => trivial).ite (locates_pure trivial)

variable (kind : SectionKind)

/-- A name that is no text is found where its length begins. -/
theorem locates_name : Locates input base (name kind) fun _ => True := by
  refine locates_position.bind fun start hplace => locates_bytes.bind fun bytes _ => ?_
  split
  · exact locates_pure trivial
  · exact locates_throw (locatedIn_malformed hplace)

theorem locates_entryType : Locates input base (entryType kind) fun _ => True :=
  locates_valueType fun _ hplace _ => locatedIn_malformed hplace

/-- A wrong form is reported where it stands. -/
theorem locates_functionType : Locates input base (functionType kind) fun _ => True := by
  refine locates_position.bind fun start hplace => locates_byte.bind fun form _ => ?_
  refine .ite ?_ (locates_throw (locatedIn_malformed hplace))
  exact (locates_entryType kind).vector.bind fun params _ =>
    (locates_entryType kind).vector.bind_pure _

theorem locates_bound (flags : UInt8) : Locates input base (bound flags) fun _ => True :=
  locates_uint64.ite (locates_uint32.map fun _ _ => trivial)

/-- Unknown flags are reported where they stand, in front of the bounds. -/
theorem locates_limits : Locates input base (limits kind) fun _ => True := by
  rw [limits_eq]
  refine locates_position.bind fun start hplace => locates_byte.bind fun flags _ => ?_
  refine .ite ?_ (locates_throw (locatedIn_malformed hplace))
  exact (locates_bound flags).bind fun min _ => ((locates_bound flags).option _).bind_pure _

theorem locates_tableType : Locates input base (tableType kind) fun _ => True :=
  (locates_entryType kind).bind fun _ _ => (locates_limits kind).bind_pure _

/-- An unknown mutability is reported where it stands. -/
theorem locates_globalType : Locates input base (globalType kind) fun _ => True := by
  refine (locates_entryType kind).bind fun content _ => locates_position.bind fun start hplace =>
    locates_byte.bind fun b _ => ?_
  split
  · exact locates_pure trivial
  · exact locates_pure trivial
  · exact locates_throw (locatedIn_malformed hplace)

/-- An unknown kind is reported where it stands, whatever the caller calls the flaw. -/
theorem locates_externalKind (flaw : SectionFlaw) :
    Locates input base (externalKind kind flaw) fun _ => True := by
  refine locates_position.bind fun start hplace => locates_byte.bind fun b _ => ?_
  split
  · exact locates_pure trivial
  · exact locates_throw (locatedIn_malformed hplace)

/-- The kind says what follows, and each of these is located. -/
theorem locates_importType (external : ExternalKind) :
    Locates input base (importType kind external) fun _ => True := by
  cases external with
  | function => exact locates_uint32.map fun _ _ => trivial
  | table => exact (locates_tableType kind).map fun _ _ => trivial
  | memory => exact (locates_limits kind).map fun _ _ => trivial
  | global => exact (locates_globalType kind).map fun _ _ => trivial

/-- Two names, a kind and what it asks for, one behind another. -/
theorem locates_importEntry : Locates input base (importEntry kind) fun _ => True :=
  (locates_name kind).bind fun _ _ => (locates_name kind).bind fun _ _ =>
    (locates_externalKind kind _).bind fun external _ => (locates_importType kind external).bind_pure _

theorem locates_exportEntry : Locates input base (exportEntry kind) fun _ => True :=
  (locates_name kind).bind fun _ _ => (locates_externalKind kind _).bind fun _ _ =>
    locates_uint32.bind_pure _

/-- Code that ends too early is an error of the section, in the same place. -/
theorem locatedIn_expressionError {e : Error} (h : e.LocatedIn input base) :
    (expressionError kind e).LocatedIn input base := by
  cases e with
  | truncatedBody position => exact locatedIn_malformed (h position rfl).1
  | _ => exact h

/-- An expression is code, read in place; that it is cut short is an error of the section. -/
theorem locates_constExpr : Locates input base (constExpr kind) fun _ => True :=
  (Disassembly.locates_read.withSource.adaptExcept
    fun _ => locatedIn_expressionError kind).bind_pure _

theorem locates_global : Locates input base (global kind) fun _ => True :=
  (locates_globalType kind).bind fun _ _ => (locates_constExpr kind).bind_pure _

/-- Indices or expressions, as the flags say. -/
theorem locates_elementItems (flags : UInt32) :
    Locates input base (elementItems kind flags) fun _ => True :=
  ((locates_constExpr kind).vector.map fun _ _ => trivial).ite
    (locates_uint32.vector.map fun _ _ => trivial)

/-- Unknown flags are reported where they stand, before any part that they announce. -/
theorem locates_elementSegment : Locates input base (elementSegment kind) fun _ => True := by
  rw [elementSegment_eq]
  refine locates_position.bind fun start hplace => locates_uint32.bind fun flags _ => ?_
  refine .ite (locates_throw (locatedIn_malformed hplace)) ?_
  exact (locates_uint32.ite (locates_pure trivial)).bind fun table _ =>
    ((locates_constExpr kind).option _).bind fun offset _ => (locates_byte.option _).bind
      fun elementType _ => (locates_elementItems kind flags).bind_pure _

/-- The same for the flags of data. -/
theorem locates_dataSegment : Locates input base (dataSegment kind) fun _ => True := by
  rw [dataSegment_eq]
  refine locates_position.bind fun start hplace => locates_uint32.bind fun flags _ => ?_
  refine .ite (locates_throw (locatedIn_malformed hplace)) ?_
  exact (locates_uint32.ite (locates_pure trivial)).bind fun memory _ =>
    ((locates_constExpr kind).option _).bind fun offset _ => locates_bytes.bind_pure _

/-! ### Bodies and whole contents -/

theorem locates_localRun : Locates input base (localRun kind) fun _ => True :=
  locates_uint32.bind fun _ _ => (locates_entryType kind).bind_pure _

/-- A body may fail in its locals. Its code is taken as it is. -/
theorem locates_bodyContents : Locates input base (bodyContents kind) fun _ => True :=
  (locates_localRun kind).vector.bind fun _ _ => locates_position.bind fun _ _ =>
    locates_takeRest.bind_pure _

/-- A body that is too large is found behind its size, and what is wrong in it where it is in the input:
the window of the body is a part of the section. -/
theorem locates_functionBody : Locates input base (functionBody kind) fun _ => True := by
  refine locates_uint32.bind fun size _ => locates_position.bind fun start hplace => ?_
  refine ((locates_window size.toNat).mapEnd fun _ _ => locatedIn_malformed hplace).bind
    fun inside hinside => ?_
  exact ((locates_bodyContents kind).within hinside).bind_pure _

/-- A custom section may fail in its name only. -/
theorem locates_customSection : Locates input base (customSection kind) fun _ => True :=
  (locates_name kind).bind fun _ _ => locates_takeRest.bind_pure _

/-- Whatever the kind, contents are a sequence of located entries or a single one. -/
theorem locates_contents : (kind : SectionKind) → Locates input base (contents kind) fun _ => True
  | .custom => locates_customSection .custom
  | .types => (locates_functionType .types).vector
  | .imports => (locates_importEntry .imports).vector
  | .functions => locates_uint32.vector
  | .tables => (locates_tableType .tables).vector
  | .memories => (locates_limits .memories).vector
  | .globals => (locates_global .globals).vector
  | .exports => (locates_exportEntry .exports).vector
  | .start => locates_uint32
  | .elements => (locates_elementSegment .elements).vector
  | .code => (locates_functionBody .code).vector
  | .data => (locates_dataSegment .data).vector
  | .dataCount => locates_uint32

theorem locates_payload : Locates input base (payload kind) fun _ => True :=
  (locates_contents kind).bind_pure _

/-! ### Sections and modules -/

/-- An unknown identifier is reported where it stands. -/
theorem locates_sectionKind : Locates input base sectionKind fun _ => True := by
  refine locates_position.bind fun start hplace => locates_byte.bind fun id _ => ?_
  split
  · exact locates_pure trivial
  · exact locates_throw (Error.locatedIn_of_offset rfl hplace trivial)

/-- A section that is too large is found where its contents should begin, and bytes that the contents
leave over where these bytes begin. -/
theorem locates_sectionContents : Locates input base (sectionContents kind) fun _ => True := by
  refine (locates_uint32.mapEnd fun _ => locatedIn_malformed).bind fun size _ =>
    locates_position.bind fun first hplace => ?_
  refine ((locates_window size.toNat).mapEnd fun _ _ => locatedIn_malformed hplace).bind
    fun inside hinside => ?_
  refine (((locates_payload kind).mapEnd fun _ => locatedIn_malformed).within hinside).bind
    fun ⟨payload, rest⟩ hrest => ?_
  have hend := hrest.2.isPlace
  dsimp only
  split
  · exact (locates_throw (P := fun _ => True) (locatedIn_malformed hend)).bind
      fun _ _ => locates_position.bind_pure _
  · exact locates_position.bind_pure _

/-- A section that is out of order is found at its identifier. -/
theorem locates_nextSection (p : Module.Progress) :
    Locates input base (nextSection p) fun _ => True := by
  refine locates_position.bind fun start hplace => ?_
  refine Locates.bind_pure (Locates.withSource (?_ : Locates input base _ fun _ => True)) _
  refine locates_sectionKind.bind fun kind _ => ?_
  split
  · exact (locates_sectionContents kind).bind_pure _
  · exact locates_throw (locatedIn_malformed hplace)

/-- The version is looked at only if there is one. Both errors name places from the start on. -/
theorem locates_header : Locates input 0 header fun _ => True := by
  refine (locates_take 4).bind fun found hlength => ?_
  have hmagic : (Error.badMagic found).LocatedIn input 0 :=
    Error.locatedIn_of_offset rfl ⟨Nat.le_refl 0, Nat.zero_le _⟩ trivial
  have hversion (version : UInt32) : (Error.unsupportedVersion version).LocatedIn input 0 :=
    Error.locatedIn_of_offset rfl ⟨Nat.zero_le 4, hlength⟩ trivial
  have hrest : Locates input 0 (do
      let version ← word 4
      if version ≠ Module.version.toNat then throw (.unsupportedVersion version.toUInt32))
      fun _ => True :=
    (locates_word 4).bind fun version _ =>
      .ite (locates_throw (hversion version.toUInt32)) (locates_pure trivial)
  split
  · exact (locates_throw (P := fun _ => True) hmagic).bind fun _ _ => hrest
  · exact hrest

/-- The header, and sections one behind another up to the end. -/
theorem locates_module : Locates input 0 module fun _ => True :=
  locates_header.bind fun _ _ => .whileUnread
    (fun p => (locates_nextSection p).map fun _ _ => trivial) (fun _ => locates_pure trivial) _

end Reader

/-- A whole input stands in itself, from the start on. -/
theorem Cursor.liesFrom_ofBytes (input : List UInt8) : (ofBytes input).LiesFrom input 0 :=
  ⟨⟨[], [], by rw [List.append_nil]; rfl, rfl⟩, Nat.le_refl 0⟩

/-- Bytes that are no module are refused for something that is found in them. -/
theorem Module.locatedIn_of_ofBytes {e : Error} (h : Module.ofBytes input = .error e) :
    e.LocatedIn input 0 := by
  obtain ⟨d, h⟩ := answer_eq_error_iff.1 h
  exact locates_module.failure (Cursor.liesFrom_ofBytes input) h

end WasmMeter
