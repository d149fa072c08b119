import WasmMeter.Proofs.Disassembly.Sequence
import WasmMeter.Section.Read

/-!
Reading the contents of a section at another offset. Function bodies keep the offset of their code, so
their offsets move with the contents; everything else is read as the same value, and errors move.
-/
namespace WasmMeter

/-- The body, read a distance further on. -/
def FunctionBody.move (distance : Nat) (body : FunctionBody) : FunctionBody :=
  { body with codeOffset := body.codeOffset + distance }

/-- The contents, read a distance further on. -/
def Payload.move (distance : Nat) (payload : Payload) : Payload :=
  payload.modify .code (·.map (FunctionBody.move distance))

namespace Reader

variable {distance : Nat}

/-- One turn of reading a sequence of instructions: the blocks that are open do not depend on the
offset. -/
theorem uniform_next (p : Disassembly.Progress) : Uniform p.next := by
  intro distance
  have hinstruction : Moves distance (mapEnd Error.truncatedBody instruction)
      (mapEnd Error.truncatedBody instruction) :=
    (uniform_instruction distance).mapEnd fun _ => rfl
  refine moves_position_bind fun start => hinstruction.withSource.bind fun answer => ?_
  obtain ⟨⟨opcode, immediate⟩, source⟩ := answer
  dsimp only
  split
  · exact moves_pure _
  · exact moves_pure _
  · exact moves_throw rfl

/-- Code is read alike at every offset, its end included. -/
theorem uniform_read : Uniform Disassembly.read :=
  fun distance => Moves.whileUnread (fun p => uniform_next p distance)
    (fun _ => moves_position_bind fun _ => moves_throw rfl) _

/-- What stands behind the code is refused where it stands. -/
theorem uniform_checkEnd : Uniform Disassembly.checkEnd := by
  refine fun distance => moves_position_bind fun start => moves_peek?.bind fun next => ?_
  split
  · exact moves_pure _
  · split
    · exact moves_throw rfl
    · exact moves_throw rfl

theorem uniform_pure {α : Type} (a : α) : Uniform (pure a) := fun _ => moves_pure a

theorem Uniform.ite {α : Type} {r other : Reader α} {condition : Prop} [Decidable condition]
    (hr : Uniform r) (hother : Uniform other) : Uniform (if condition then r else other) := by
  split
  · exact hr
  · exact hother

theorem Uniform.map {α β : Type} {r : Reader α} (h : Uniform r) (f : α → β) : Uniform (f <$> r) :=
  fun distance => (h distance).map f

/-- What comes after a part that is read under a condition comes after it either way. -/
theorem ite_bind {α β : Type} {condition : Prop} [Decidable condition] (r other : Reader α)
    (f : α → Reader β) :
    (if condition then r else other) >>= f =
      if condition then r >>= f else other >>= f := by
  split <;> rfl

section

variable (kind : SectionKind)

/-! ### Parts that are read under a condition -/

/-- The parts of limits in turn, with a maximum if the flags announce one. -/
theorem limits_eq : limits kind = position >>= fun start => byte >>= fun flags =>
    if Limits.validFlags flags then
      bound flags >>= fun min =>
        (if Limits.hasMax flags then some <$> bound flags else pure none) >>= fun max =>
          pure ⟨flags, min, max⟩
    else throw (kind.malformed .invalidLimitsFlags start) := by
  simp only [ite_bind]
  rfl

/-- The parts of an element segment in turn, with those that the flags leave out. -/
theorem elementSegment_eq : elementSegment kind = position >>= fun start => uint32 >>= fun flags =>
    if 7 < flags then throw (kind.malformed .invalidElementFlags start)
    else (if ElementSegment.namesTable flags then uint32 else pure 0) >>= fun table =>
      (if ElementSegment.isActive flags then some <$> constExpr kind else pure none) >>= fun offset =>
        (if ElementSegment.namesType flags then some <$> byte else pure none) >>= fun elementType =>
          elementItems kind flags >>= fun items =>
            pure ⟨flags, table, offset, elementType, items⟩ := by
  simp only [ite_bind]
  rfl

/-- The parts of a data segment in turn, with those that the flags leave out. -/
theorem dataSegment_eq : dataSegment kind = position >>= fun start => uint32 >>= fun flags =>
    if 2 < flags then throw (kind.malformed .invalidDataFlags start)
    else (if flags = 2 then uint32 else pure 0) >>= fun memory =>
      (if flags ≠ 1 then some <$> constExpr kind else pure none) >>= fun offset =>
        Reader.bytes >>= fun data => pure ⟨flags, memory, offset, data⟩ := by
  simp only [ite_bind, ne_eq, ite_not]
  rfl

/-! ### Entries -/

theorem uniform_bytes : Uniform Reader.bytes :=
  fun distance => (uniform_uint32 distance).bind fun _ => moves_take _

/-- A name that is no text is named by the offset of its length. -/
theorem uniform_name : Uniform (name kind) := by
  intro distance
  refine moves_position_bind fun start => (uniform_bytes distance).bind fun bytes => ?_
  split
  · exact moves_pure _
  · exact moves_throw rfl

/-- An unknown type is named by its own offset. -/
theorem uniform_entryType : Uniform (entryType kind) := by
  intro distance
  refine moves_position_bind fun start => moves_byte.bind fun b => ?_
  split
  · exact moves_pure _
  · exact moves_throw rfl

theorem uniform_functionType : Uniform (functionType kind) := by
  intro distance
  have htypes := (uniform_entryType kind).vector distance
  refine moves_position_bind fun start => moves_byte.bind fun form => ?_
  split
  · exact htypes.bind fun params => htypes.bind fun results => moves_pure _
  · exact moves_throw rfl

theorem uniform_bound (flags : UInt8) : Uniform (bound flags) := by
  intro distance
  unfold bound
  split
  · exact uniform_uint64 distance
  · exact (uniform_uint32 distance).map _

/-- Unknown flags are named by their offset; the bounds behind them are integers. -/
theorem uniform_limits : Uniform (limits kind) := by
  intro distance
  rw [limits_eq]
  refine moves_position_bind fun start => moves_byte.bind fun flags => ?_
  have hbound := uniform_bound flags
  split
  · exact (hbound distance).bind fun min =>
      ((hbound.map some).ite (uniform_pure none) distance).bind fun max => moves_pure _
  · exact moves_throw rfl

theorem uniform_tableType : Uniform (tableType kind) :=
  fun distance => (uniform_entryType kind distance).bind fun _ =>
    (uniform_limits kind distance).bind fun _ => moves_pure _

/-- An unknown mutability is named by its offset. -/
theorem uniform_globalType : Uniform (globalType kind) := by
  intro distance
  refine (uniform_entryType kind distance).bind fun content => moves_position_bind fun start =>
    moves_byte.bind fun b => ?_
  split
  · exact moves_pure _
  · exact moves_pure _
  · exact moves_throw rfl

/-- An unknown kind is named by its offset, with the flaw that the caller gives. -/
theorem uniform_externalKind (flaw : SectionFlaw) : Uniform (externalKind kind flaw) := by
  intro distance
  refine moves_position_bind fun start => moves_byte.bind fun b => ?_
  split
  · exact moves_pure _
  · exact moves_throw rfl

/-- What follows the kind of an import is what the kind says. -/
theorem uniform_importType (external : ExternalKind) : Uniform (importType kind external) := by
  intro distance
  cases external with
  | function => exact (uniform_uint32 distance).map _
  | table => exact (uniform_tableType kind distance).map _
  | memory => exact (uniform_limits kind distance).map _
  | global => exact (uniform_globalType kind distance).map _

theorem uniform_importEntry : Uniform (importEntry kind) :=
  fun distance => (uniform_name kind distance).bind fun _ => (uniform_name kind distance).bind
    fun _ => (uniform_externalKind kind _ distance).bind fun external =>
      (uniform_importType kind external distance).bind fun _ => moves_pure _

theorem uniform_exportEntry : Uniform (exportEntry kind) :=
  fun distance => (uniform_name kind distance).bind fun _ =>
    (uniform_externalKind kind _ distance).bind fun _ =>
      (uniform_uint32 distance).bind fun _ => moves_pure _

/-- An expression that is cut short is a flaw of the section at the same place, moved or not. -/
theorem move_expressionError (error : Error) :
    (expressionError kind error).move distance = expressionError kind (error.move distance) := by
  cases error <;> rfl

/-- The bytes of an expression are kept, and they are the same wherever they stand. -/
theorem uniform_constExpr : Uniform (constExpr kind) :=
  fun distance => ((uniform_read distance).withSource.adaptExcept
    (move_expressionError kind)).bind fun _ => moves_pure _

theorem uniform_global : Uniform (global kind) :=
  fun distance => (uniform_globalType kind distance).bind fun _ =>
    (uniform_constExpr kind distance).bind fun _ => moves_pure _

/-- The flags say which of the two kinds of items there are. -/
theorem uniform_elementItems (flags : UInt32) : Uniform (elementItems kind flags) := by
  intro distance
  unfold elementItems
  split
  · exact ((uniform_constExpr kind).vector distance).map _
  · exact (uniform_uint32.vector distance).map _

/-- Unknown flags are named by their offset, before anything else is read. -/
theorem uniform_elementSegment : Uniform (elementSegment kind) := by
  intro distance
  rw [elementSegment_eq]
  refine moves_position_bind fun start => (uniform_uint32 distance).bind fun flags => ?_
  have hoffset := (uniform_constExpr kind).map some
  have hbyte : Uniform byte := fun _ => moves_byte
  split
  · exact moves_throw rfl
  · exact (uniform_uint32.ite (uniform_pure 0) distance).bind fun table =>
      (hoffset.ite (uniform_pure none) distance).bind fun offset =>
        ((hbyte.map some).ite (uniform_pure none) distance).bind fun elementType =>
          (uniform_elementItems kind flags distance).bind fun items => moves_pure _

/-- The same for the flags of data. -/
theorem uniform_dataSegment : Uniform (dataSegment kind) := by
  intro distance
  rw [dataSegment_eq]
  refine moves_position_bind fun start => (uniform_uint32 distance).bind fun flags => ?_
  have hoffset := (uniform_constExpr kind).map some
  split
  · exact moves_throw rfl
  · exact (uniform_uint32.ite (uniform_pure 0) distance).bind fun memory =>
      (hoffset.ite (uniform_pure none) distance).bind fun offset =>
        (uniform_bytes distance).bind fun data => moves_pure _

theorem uniform_localRun : Uniform (localRun kind) :=
  fun distance => (uniform_uint32 distance).bind fun _ =>
    (uniform_entryType kind distance).bind fun _ => moves_pure _

theorem uniform_customSection : Uniform (customSection kind) :=
  fun distance => (uniform_name kind distance).bind fun _ =>
    moves_takeRest.bind fun _ => moves_pure _

/-! ### Bodies and whole contents -/

/-- A body keeps the offset of its code. This is the one thing in a section that moves with the section.
-/
theorem moves_bodyContents :
    Moves distance (FunctionBody.move distance <$> bodyContents kind) (bodyContents kind) := by
  rw [bodyContents, map_bind]
  refine ((uniform_localRun kind).vector distance).bind fun locals => ?_
  rw [map_bind]
  refine moves_position_bind fun start => ?_
  rw [map_bind]
  exact moves_takeRest.bind fun code => moves_pure _

theorem map_mapEnd {α β : Type} (f : α → β) (cause : Nat → Error) (r : Reader α) :
    f <$> mapEnd cause r = mapEnd cause (f <$> r) := by
  funext c
  simp only [mapEnd, EStateM.adaptExcept, Functor.map, EStateM.map]
  cases r c <;> rfl

/-- A body is read inside of a window of its own, which is the moved one if all is moved. -/
theorem moves_functionBody :
    Moves distance (FunctionBody.move distance <$> functionBody kind) (functionBody kind) := by
  rw [functionBody, map_bind]
  refine (uniform_uint32 distance).bind fun size => ?_
  rw [map_bind]
  refine moves_position_bind fun start => ?_
  rw [map_bind]
  have hwindow : Moves distance
      (Cursor.move distance <$> mapEnd (fun _ => kind.malformed .bodyExceedsSection start)
        (window size.toNat))
      (mapEnd (fun _ => kind.malformed .bodyExceedsSection (start + distance))
        (window size.toNat)) := by
    rw [map_mapEnd]
    exact (moves_window size.toNat).mapEnd fun _ => rfl
  refine hwindow.bind_of_map fun inside => ?_
  rw [map_bind]
  exact ((moves_bodyContents kind).within inside).bind_of_map fun answer => moves_pure _

end

/-- In all other sections nothing remembers where it stood. -/
theorem uniform_contents {kind : SectionKind} (h : kind ≠ .code) : Uniform (contents kind) := by
  cases kind with
  | custom => exact uniform_customSection .custom
  | types => exact (uniform_functionType .types).vector
  | imports => exact (uniform_importEntry .imports).vector
  | functions => exact uniform_uint32.vector
  | tables => exact (uniform_tableType .tables).vector
  | memories => exact (uniform_limits .memories).vector
  | globals => exact (uniform_global .globals).vector
  | exports => exact (uniform_exportEntry .exports).vector
  | start => exact uniform_uint32
  | elements => exact (uniform_elementSegment .elements).vector
  | code => exact absurd rfl h
  | data => exact (uniform_dataSegment .data).vector
  | dataCount => exact uniform_uint32

/-- What is read of a moved section is what was read, with the offsets of its code moved. -/
theorem moves_payload (kind : SectionKind) :
    Moves distance (Payload.move distance <$> payload kind) (payload kind) := by
  rw [payload, map_bind]
  by_cases h : kind = .code
  · subst h
    have hbodies : Moves distance
        (List.map (FunctionBody.move distance) <$> contents .code) (contents .code) := by
      rw [contents, vector, map_bind]
      exact (uniform_uint32 distance).bind fun count =>
        (moves_functionBody .code).times_map count.toNat
    refine hbodies.bind_of_map fun bodies => ?_
    rw [map_pure]
    exact moves_pure _
  · refine (uniform_contents h distance).bind fun contents => ?_
    rw [map_pure, Payload.move, Payload.modify, dif_neg h]
    exact moves_pure _

end Reader

open Reader in
/-- Code that begins a distance further on is disassembled in the same way, or refused for the same
reason a distance further on. -/
theorem Disassembly.ofBytesAt_add (base distance : Nat) (code : List UInt8) :
    ofBytesAt (base + distance) code =
      (ofBytesAt base code).mapError (Error.move distance) := by
  have hmoves : Moves distance (do let d ← read; checkEnd; return d)
      (do let d ← read; checkEnd; return d) :=
    (uniform_read distance).bind fun d => (uniform_checkEnd distance).bind fun _ => moves_pure d
  have hcode := hmoves ⟨code, base⟩
  unfold ofBytesAt answer
  rw [show (⟨code, base + distance⟩ : Cursor) = Cursor.move distance ⟨code, base⟩ from rfl, hcode]
  generalize (do let d ← read; checkEnd; return d : Reader Disassembly)
    ⟨code, base⟩ = result
  cases result with
  | ok d c => rfl
  | error e c => rfl

end WasmMeter
