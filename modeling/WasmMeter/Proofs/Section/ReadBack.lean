import Mathlib.Algebra.Order.BigOperators.Group.List
import Mathlib.Algebra.Order.Group.Nat
import WasmMeter.Proofs.Section.WellFormed

/-!
Reading back the contents of a section. Every well-formed entry is read back from the bytes that it is
written as. The optional parts are written if they are there and read if the flags announce them, so
this is where well-formedness is needed. Function bodies are read back with the offset of their code.
-/
namespace WasmMeter

namespace Bytes

variable {α : Type} {bytes : α → List UInt8} {items : List α}

/-- An entry is no longer than its sequence. -/
theorem length_le_length_vector {a : α} (h : a ∈ items) :
    (bytes a).length ≤ (vector bytes items).length := by
  have hsub : (bytes a).Sublist (items.flatMap bytes) := by
    rw [List.flatMap]
    exact List.sublist_flatten_of_mem (List.mem_map_of_mem h)
  rw [vector, List.length_append]
  have := hsub.length_le
  omega

/-- A sequence is longer than the sizes of its entries together, if no entry is shorter than its
size. -/
theorem sum_lt_length_vector {size : α → Nat} (h : ∀ a ∈ items, size a ≤ (bytes a).length) :
    (items.map size).sum < (vector bytes items).length := by
  have hsum := List.sum_le_sum h
  have hpos : 0 < (ofLength items.length).length := length_ofUInt32_pos _
  rw [vector, List.length_append, List.length_flatMap]
  omega

/-- The same for a size that all entries have in common. -/
theorem mul_length_lt_length_vector {n : Nat} (h : ∀ a ∈ items, n ≤ (bytes a).length) :
    items.length * n < (vector bytes items).length := by
  have hsum : (items.map fun _ => n).sum < (vector bytes items).length := sum_lt_length_vector h
  rwa [List.map_const', List.sum_replicate_nat] at hsum

/-- A sequence of entries that are never empty has fewer entries than bytes. -/
theorem length_items_lt (h : ∀ a ∈ items, bytes a ≠ []) :
    items.length < (vector bytes items).length := by
  have hlt : items.length * 1 < (vector bytes items).length :=
    mul_length_lt_length_vector fun a ha => List.length_pos_iff.2 (h a ha)
  rwa [Nat.mul_one] at hlt

end Bytes

/-! ### No entry is written as nothing -/

theorem FunctionType.toBytes_ne_nil (type : FunctionType) : type.toBytes ≠ [] := by simp [toBytes]

theorem Import.toBytes_ne_nil (entry : Import) : entry.toBytes ≠ [] := by simp [toBytes]

/-- There is a length in front of the first name, whatever the names, and the kind behind them. -/
theorem Import.two_le_length_toBytes (entry : Import) : 2 ≤ entry.toBytes.length := by
  have hname : 0 < (Bytes.ofName entry.moduleName).length := by
    rw [Bytes.ofName, Bytes.length_counted]
    exact Nat.add_pos_left (Bytes.length_ofUInt32_pos _) _
  rw [toBytes, List.length_append, List.length_append, List.length_cons]
  omega

theorem TableType.toBytes_ne_nil (type : TableType) : type.toBytes ≠ [] := List.cons_ne_nil _ _

theorem Limits.toBytes_ne_nil (limits : Limits) : limits.toBytes ≠ [] := by simp [toBytes]

theorem Global.toBytes_ne_nil (entry : Global) : entry.toBytes ≠ [] := by
  simp [toBytes, GlobalType.toBytes]

theorem Export.toBytes_ne_nil (entry : Export) : entry.toBytes ≠ [] := by simp [toBytes]

/-- An instruction sequence has at least one instruction. -/
theorem ConstExpr.WellFormed.bytes_ne_nil {expression : ConstExpr} (h : expression.WellFormed) :
    expression.bytes ≠ [] := by
  intro hnil
  rw [ConstExpr.WellFormed, hnil] at h
  cases h

theorem ElementSegment.toBytes_ne_nil (segment : ElementSegment) : segment.toBytes ≠ [] := by
  simp [toBytes, Bytes.ofUInt32_ne_nil]

theorem DataSegment.toBytes_ne_nil (segment : DataSegment) : segment.toBytes ≠ [] := by
  simp [toBytes, Bytes.ofUInt32_ne_nil]

/-- A body without anything in it has a length. -/
theorem FunctionBody.toBytes_ne_nil (body : FunctionBody) : body.toBytes ≠ [] := by
  simp [toBytes, Bytes.counted, Bytes.ofLength, Bytes.ofUInt32_ne_nil]

/-- There is a length in front of a body and a number of runs in front of its locals, even if it has
neither locals nor code. -/
theorem FunctionBody.two_le_length_toBytes (body : FunctionBody) : 2 ≤ body.toBytes.length := by
  have hcount : 0 < (Bytes.vector localBytes body.locals).length := by
    rw [Bytes.vector, List.length_append]
    exact Nat.add_pos_left (Bytes.length_ofUInt32_pos _) _
  have hcontents : 0 < (Bytes.vector localBytes body.locals ++ body.code).length := by
    rw [List.length_append]
    exact Nat.add_pos_left hcount _
  rw [toBytes, Bytes.length_counted]
  exact Nat.add_le_add (Bytes.length_ofUInt32_pos _) hcontents

/-! ### Reading entries back -/

namespace Reader

variable {α : Type} {a : α} {bytes : List UInt8}

/-- Bytes that are taken exactly leave nothing if nothing stands behind them. -/
theorem Reads.exhausts {r : Reader α} (h : Reads r bytes a) (first : Nat) :
    Exhausts r ⟨bytes, first⟩ a := by
  have hread := h [] first
  rw [List.append_nil] at hread
  exact ⟨_, hread, rfl⟩

/-- A first part of a single byte. -/
theorem Reads.bind_cons {β : Type} {r : Reader β} {f : β → Reader α} {b : UInt8} {x : β}
    (hr : Reads r [b] x) (hf : Reads (f x) bytes a) : Reads (r >>= f) (b :: bytes) a :=
  hr.bind hf

/-- A choice that was made before is known to both branches. -/
theorem reads_ite {r other : Reader α} {condition : Prop} [Decidable condition]
    (hr : condition → Reads r bytes a) (hother : ¬condition → Reads other bytes a) :
    Reads (if condition then r else other) bytes a := by
  split
  · next h => exact hr h
  · next h => exact hother h

/-- What is short enough as a whole has no entry and no number of entries that is too great. -/
theorem reads_vector_of_length {item : Reader α} {bytes : α → List UInt8} {items : List α}
    (hlength : (Bytes.vector bytes items).length < 2 ^ 32) (hne : ∀ a ∈ items, bytes a ≠ [])
    (h : ∀ a ∈ items, (bytes a).length < 2 ^ 32 → Reads item (bytes a) a) :
    Reads (vector item) (Bytes.vector bytes items) items :=
  reads_vector (Nat.lt_trans (Bytes.length_items_lt hne) hlength) fun a ha =>
    h a ha (Nat.lt_of_le_of_lt (Bytes.length_le_length_vector ha) hlength)

/-- Counted bytes that are short enough with their length are short enough without it. -/
theorem reads_counted (h : (Bytes.counted bytes).length < 2 ^ 32) :
    Reads Reader.bytes (Bytes.counted bytes) bytes := by
  refine reads_bytes ?_
  rw [Bytes.length_counted] at h
  omega

variable (kind : SectionKind)

/-- A name that was text is text again. -/
theorem reads_name {text : String} (h : (Bytes.ofName text).length < 2 ^ 32) :
    Reads (name kind) (Bytes.ofName text) text := by
  refine reads_position_bind fun start => ?_
  have hname : String.fromUTF8? ⟨text.toUTF8.data.toList.toArray⟩ = some text := by
    rw [Array.toArray_toList]
    exact dif_pos text.isValidUTF8
  rw [← List.append_nil (Bytes.ofName text)]
  refine (reads_counted h).bind ?_
  rw [hname]
  exact reads_pure text

theorem reads_types {types : List ValueType}
    (h : (Bytes.vector (fun t => [ValueType.toByte t]) types).length < 2 ^ 32) :
    Reads (vector (entryType kind)) (Bytes.vector (fun t => [ValueType.toByte t]) types) types :=
  reads_vector_of_length h (fun _ _ => List.cons_ne_nil _ _) fun type _ _ => reads_valueType _ type

/-- Only the form that there is can be read back. -/
theorem reads_functionType {type : FunctionType} (hform : type.WellFormed)
    (h : type.toBytes.length < 2 ^ 32) : Reads (functionType kind) type.toBytes type := by
  obtain ⟨form, params, results⟩ := type
  obtain rfl : form = FunctionType.functionForm := hform
  simp only [FunctionType.toBytes, List.length_append, List.length_cons] at h ⊢
  refine reads_position_bind fun start => (reads_byte _).bind_cons ?_
  rw [if_pos rfl]
  exact (reads_types kind (by omega)).bind ((reads_types kind (by omega)).bind_pure _)

/-- A bound that is written in 32 bits has to fit in them. -/
theorem reads_bound {flags : UInt8} {value : UInt64}
    (h : Limits.isWide flags = false → value.toNat < 2 ^ 32) :
    Reads (bound flags) (Limits.boundBytes flags value) value := by
  unfold bound Limits.boundBytes
  cases hw : Limits.isWide flags with
  | true => exact reads_uint64 value
  | false =>
      have hvalue : value.toUInt32.toUInt64 = value := by
        apply UInt64.toNat_inj.1
        have := h hw
        simp
        omega
      have hread := (reads_uint32 value.toUInt32).map UInt32.toUInt64
      rwa [hvalue] at hread

/-- The flags announce the maximum that is there, so it is read if and only if it was written. -/
theorem reads_limits {value : Limits} (h : value.WellFormed) :
    Reads (limits kind) value.toBytes value := by
  obtain ⟨flags, min, max⟩ := value
  obtain ⟨hflags, hmax, hnarrow⟩ := h
  rw [limits_eq]
  refine reads_position_bind fun start => (reads_byte flags).bind_cons ?_
  rw [if_pos hflags]
  have hsecond : Reads (if Limits.hasMax flags then some <$> bound flags else pure none)
      ((max.map (Limits.boundBytes flags)).getD []) max := by
    cases max with
    | none =>
        refine reads_ite (fun hm => absurd (hmax.trans hm) (by simp)) fun _ => reads_pure none
    | some value =>
        refine reads_ite (fun _ => ?_) fun hm => absurd hmax.symm hm
        exact (reads_bound fun hw => (hnarrow hw).2 value rfl).map some
  exact (reads_bound fun hw => (hnarrow hw).1).bind (hsecond.bind_pure _)

theorem reads_tableType {type : TableType} (h : type.limits.WellFormed) :
    Reads (tableType kind) type.toBytes type :=
  (reads_valueType _ type.element).bind_cons ((reads_limits kind h).bind_pure _)

theorem reads_globalType (type : GlobalType) : Reads (globalType kind) type.toBytes type := by
  obtain ⟨content, isMutable⟩ := type
  refine (reads_valueType _ content).bind_cons (reads_position_bind fun start => ?_)
  cases isMutable with
  | false => exact (reads_byte 0).bind_pure fun _ => GlobalType.mk content false
  | true => exact (reads_byte 1).bind_pure fun _ => GlobalType.mk content true

theorem reads_externalKind (flaw : SectionFlaw) (external : ExternalKind) :
    Reads (externalKind kind flaw) [external.toByte] external := by
  refine reads_position_bind fun start => ?_
  cases external <;> exact (reads_byte _).bind_pure fun _ => _

/-- The kind of an import is written in front of it and chooses its reader. -/
theorem reads_importType {type : ImportType} (h : type.WellFormed) :
    Reads (importType kind type.kind) type.toBytes type := by
  cases type with
  | function index => exact (reads_uint32 index).map _
  | table type => exact (reads_tableType kind h).map _
  | memory limits => exact (reads_limits kind h).map _
  | global type => exact (reads_globalType kind type).map _

/-- An entry is short enough as a whole, and so are its names. -/
theorem reads_importEntry {entry : Import} (hentry : entry.type.WellFormed)
    (h : entry.toBytes.length < 2 ^ 32) : Reads (importEntry kind) entry.toBytes entry := by
  obtain ⟨moduleName, fieldName, type⟩ := entry
  simp only [Import.toBytes, List.length_append, List.length_cons] at h ⊢
  rw [List.append_assoc]
  exact (reads_name kind (by omega)).bind ((reads_name kind (by omega)).bind
    ((reads_externalKind kind _ type.kind).bind_cons
      ((reads_importType kind hentry).bind_pure _)))

theorem reads_exportEntry {entry : Export} (h : entry.toBytes.length < 2 ^ 32) :
    Reads (exportEntry kind) entry.toBytes entry := by
  obtain ⟨name, external, index⟩ := entry
  simp only [Export.toBytes, List.length_append, List.length_cons] at h ⊢
  exact (reads_name kind (by omega)).bind ((reads_externalKind kind _ external).bind_cons
    ((reads_uint32 index).bind_pure _))

/-- The bytes of an expression say where it ends. -/
theorem reads_constExpr {expression : ConstExpr} (h : expression.WellFormed) :
    Reads (constExpr kind) expression.bytes expression := by
  cases hd : Disassembly.ofBytes expression.bytes with
  | error e => rw [ConstExpr.WellFormed, hd] at h; cases h
  | ok d =>
      obtain ⟨hread, hbytes⟩ := Disassembly.ofBytesAt_eq_ok_iff.1 hd
      have hsource := hread.reads.withSource
      rw [hbytes] at hsource
      have hadapted : Reads ((withSource Disassembly.read).adaptExcept (expressionError kind))
          expression.bytes (d, expression.bytes) :=
        fun rest place => adaptExcept_eq_ok_iff.2 (hsource rest place)
      exact hadapted.bind_pure fun answer => ConstExpr.mk answer.2

theorem reads_global {entry : Global} (h : entry.init.WellFormed) :
    Reads (global kind) entry.toBytes entry :=
  (reads_globalType kind entry.type).bind ((reads_constExpr kind h).bind_pure _)

/-- Items of the kind that the flags announce are read as that kind. -/
theorem reads_elementItems {flags : UInt32} {items : ElementItems} (hitems : items.WellFormed flags)
    (h : items.toBytes.length < 2 ^ 32) : Reads (elementItems kind flags) items.toBytes items := by
  unfold elementItems
  cases items with
  | indices functions =>
      rw [if_neg (ne_true_of_eq_false hitems)]
      exact (reads_vector_of_length h (fun index _ => Bytes.ofUInt32_ne_nil index)
        fun index _ _ => reads_uint32 index).map _
  | expressions slots =>
      obtain ⟨hflags, hslots⟩ := hitems
      rw [if_pos hflags]
      exact (reads_vector_of_length h (fun slot hs => (hslots slot hs).bytes_ne_nil)
        fun slot hs _ => reads_constExpr kind (hslots slot hs)).map _

/-- An expression is there exactly if the flags announce one. -/
theorem reads_optionalExpr {condition : Prop} [Decidable condition] {offset : Option ConstExpr}
    (hoffset : offset.isSome = true ↔ condition)
    (h : ∀ expression ∈ offset, expression.WellFormed) :
    Reads (if condition then some <$> constExpr kind else pure none)
      (ConstExpr.optionBytes offset) offset := by
  cases offset with
  | none => exact reads_ite (fun hc => absurd (hoffset.2 hc) (by simp)) fun _ => reads_pure none
  | some expression =>
      exact reads_ite (fun _ => (reads_constExpr kind (h expression rfl)).map some)
        fun hc => absurd (hoffset.1 rfl) hc

/-- Every part agrees with the flags, so what is written is what they announce. -/
theorem reads_elementSegment {segment : ElementSegment} (hsegment : segment.WellFormed)
    (h : segment.toBytes.length < 2 ^ 32) :
    Reads (elementSegment kind) segment.toBytes segment := by
  obtain ⟨flags, table, offset, elementType, items⟩ := segment
  obtain ⟨hflags, htable, hoffset, hexpression, htype, hitems⟩ := hsegment
  simp only [ElementSegment.toBytes, List.length_append] at h htable hitems ⊢
  simp only [List.append_assoc]
  rw [elementSegment_eq]
  have htableRead : Reads (if ElementSegment.namesTable flags then uint32 else pure 0)
      (if ElementSegment.namesTable flags then Bytes.ofUInt32 table else []) table := by
    cases hn : ElementSegment.namesTable flags with
    | true => exact reads_uint32 table
    | false => rw [htable hn]; exact reads_pure 0
  have htypeRead : Reads (if ElementSegment.namesType flags then some <$> byte else pure none)
      elementType.toList elementType := by
    cases elementType with
    | none => exact reads_ite (fun hn => absurd (htype.trans hn) (by simp)) fun _ => reads_pure none
    | some b => exact reads_ite (fun _ => (reads_byte b).map some) fun hn => absurd htype.symm hn
  refine reads_position_bind fun start => (reads_uint32 flags).bind ?_
  rw [if_neg (UInt32.not_lt.2 hflags)]
  exact htableRead.bind ((reads_optionalExpr kind (by rw [hoffset]) hexpression).bind
    (htypeRead.bind ((reads_elementItems kind hitems (by omega)).bind_pure _)))

/-- The same for data. A memory that the flags do not name is the first one, and is not written. -/
theorem reads_dataSegment {segment : DataSegment} (hsegment : segment.WellFormed)
    (h : segment.toBytes.length < 2 ^ 32) :
    Reads (dataSegment kind) segment.toBytes segment := by
  obtain ⟨flags, memory, offset, data⟩ := segment
  obtain ⟨hflags, hmemory, hoffset, hexpression⟩ := hsegment
  simp only [DataSegment.toBytes, List.length_append] at h hmemory ⊢
  simp only [List.append_assoc]
  rw [dataSegment_eq]
  have hmemoryRead : Reads (if flags = 2 then uint32 else pure 0)
      (if flags = 2 then Bytes.ofUInt32 memory else []) memory := by
    by_cases hn : flags = 2
    · rw [if_pos hn, if_pos hn]; exact reads_uint32 memory
    · rw [if_neg hn, if_neg hn, hmemory hn]; exact reads_pure 0
  refine reads_position_bind fun start => (reads_uint32 flags).bind ?_
  rw [if_neg (UInt32.not_lt.2 hflags)]
  exact hmemoryRead.bind ((reads_optionalExpr kind hoffset hexpression).bind
    ((reads_counted (by omega)).bind_pure _))

/-- A run of locals is a number and a type. -/
theorem reads_localRun (run : UInt32 × ValueType) :
    Reads (localRun kind) (FunctionBody.localBytes run) run :=
  (reads_uint32 run.1).bind ((reads_valueType _ run.2).bind_pure _)

end Reader

/-! ### Bodies in their places -/

/-- The body with the offset of its code, which is the last part of it, where the body begins at
`start`. -/
def FunctionBody.place (start : Nat) (body : FunctionBody) : FunctionBody :=
  { body with codeOffset := start + (body.toBytes.length - body.code.length) }

/-- The code stands behind the length of the body and its locals. -/
theorem FunctionBody.place_eq (start : Nat) (body : FunctionBody) :
    body.place start = ⟨body.locals, body.code,
      start + (Bytes.ofLength (Bytes.vector localBytes body.locals ++ body.code).length).length +
        (Bytes.vector localBytes body.locals).length⟩ := by
  have hlength : body.toBytes.length =
      (Bytes.ofLength (Bytes.vector localBytes body.locals ++ body.code).length).length +
        ((Bytes.vector localBytes body.locals).length + body.code.length) := by
    rw [toBytes, Bytes.length_counted, List.length_append]
  rw [place, hlength, ← Nat.add_assoc, Nat.add_sub_cancel, Nat.add_assoc start]

/-- Bodies one behind another, the first of which begins at `start`. -/
def FunctionBody.placeAll (start : Nat) : List FunctionBody → List FunctionBody
  | [] => []
  | body :: rest => body.place start :: placeAll (start + body.toBytes.length) rest

/-- The contents with the offsets that they have where they begin at `first`. -/
def Payload.place (first : Nat) (payload : Payload) : Payload :=
  payload.modify .code fun bodies =>
    FunctionBody.placeAll (first + (Bytes.ofLength bodies.length).length) bodies

namespace Reader

variable {kind : SectionKind} {rest : List UInt8} {start first : Nat}

/-- A body is read back with the offset that its code has now. What stands behind it is left. -/
theorem functionBody_toBytes {body : FunctionBody} (h : body.toBytes.length < 2 ^ 32) :
    functionBody kind ⟨body.toBytes ++ rest, start⟩ =
      .ok (body.place start) ⟨rest, start + body.toBytes.length⟩ := by
  have hlength := h
  rw [FunctionBody.toBytes, Bytes.length_counted] at hlength
  have hlocals : Reads (vector (localRun kind)) (Bytes.vector FunctionBody.localBytes body.locals)
      body.locals := by
    rw [List.length_append] at hlength
    exact reads_vector_of_length (by omega) (fun _ _ => by simp [FunctionBody.localBytes])
      fun run _ _ => reads_localRun kind run
  have hinside (place : Nat) : bodyContents kind
      ⟨Bytes.vector FunctionBody.localBytes body.locals ++ body.code, place⟩ =
        .ok ⟨body.locals, body.code,
            place + (Bytes.vector FunctionBody.localBytes body.locals).length⟩
          ⟨[], place + (Bytes.vector FunctionBody.localBytes body.locals).length +
            body.code.length⟩ :=
    bind_eq_ok_iff.2 ⟨body.locals, _, hlocals body.code place, rfl⟩
  rw [functionBody, sized_eq_ok_iff fun _ _ _ => Iff.rfl]
  refine ⟨_, _, rest, by omega, reads_uint32 _, List.append_assoc (Bytes.ofLength _) _ rest,
    bind_eq_ok_iff.2 ⟨_, _, within_eq_ok_iff.2 ⟨hinside _, rfl⟩, pure_eq_ok_iff.2 ⟨?_, ?_⟩⟩⟩
  · exact (body.place_eq start).symm
  · rw [FunctionBody.toBytes, Bytes.length_counted, ← Nat.add_assoc]
    rfl

/-- Bodies are read one behind another, each in its own place. The induction is on the bodies. -/
theorem times_functionBody {bodies : List FunctionBody}
    (h : ∀ body ∈ bodies, body.toBytes.length < 2 ^ 32) :
    times bodies.length (functionBody kind) ⟨bodies.flatMap FunctionBody.toBytes ++ rest, start⟩ =
      .ok (FunctionBody.placeAll start bodies)
        ⟨rest, start + (bodies.flatMap FunctionBody.toBytes).length⟩ := by
  induction bodies generalizing start with
  | nil => rfl
  | cons body bodies ih =>
      obtain ⟨hbody, hbodies⟩ := List.forall_mem_cons.1 h
      rw [List.length_cons, times_succ, List.flatMap_cons, List.append_assoc,
        bind_of_ok (functionBody_toBytes hbody), bind_of_ok (ih hbodies), List.length_append,
        Nat.add_assoc]
      rfl

/-- The bodies of a section begin behind their number. -/
theorem exhausts_bodies {bodies : List FunctionBody}
    (h : (Bytes.vector FunctionBody.toBytes bodies).length < 2 ^ 32) (first : Nat) :
    Exhausts (vector (functionBody kind)) ⟨Bytes.vector FunctionBody.toBytes bodies, first⟩
      (FunctionBody.placeAll (first + (Bytes.ofLength bodies.length).length) bodies) := by
  have hcount : bodies.length < 2 ^ 32 :=
    Nat.lt_trans (Bytes.length_items_lt fun body _ => body.toBytes_ne_nil) h
  have hbodies : ∀ body ∈ bodies, body.toBytes.length < 2 ^ 32 := fun body hb =>
    Nat.lt_of_le_of_lt (Bytes.length_le_length_vector hb) h
  have hread : times bodies.length (functionBody kind)
      ⟨bodies.flatMap FunctionBody.toBytes ++ [], first + (Bytes.ofLength bodies.length).length⟩ =
        .ok _ _ := times_functionBody hbodies
  rw [List.append_nil] at hread
  have hsize := reads_uint32 bodies.length.toUInt32 (bodies.flatMap FunctionBody.toBytes) first
  have hback : times bodies.length.toUInt32.toNat (functionBody kind) =
      times bodies.length (functionBody kind) := by
    rw [UInt32.toNat_ofNat_of_lt' hcount]
  exact ⟨_, (bind_of_ok hsize).trans ((congrFun hback _).trans hread), rfl⟩

/-- A custom section ends with its section: nothing in it says where its data end. -/
theorem exhausts_customSection (custom : CustomSection) (h : custom.toBytes.length < 2 ^ 32)
    (first : Nat) : Exhausts (customSection kind) ⟨custom.toBytes, first⟩ custom := by
  rw [CustomSection.toBytes, List.length_append] at h
  exact ⟨_, bind_eq_ok_iff.2 ⟨custom.name, _, reads_name kind (by omega) _ _, rfl⟩, rfl⟩

/-- The contents whose bytes say where they end and that are not placed. -/
theorem reads_contents {kind : SectionKind} {entries : kind.Contents}
    (hentries : kind.EntriesWellFormed entries)
    (hlength : (kind.contentsBytes entries).length < 2 ^ 32) (hcustom : kind ≠ .custom)
    (hcode : kind ≠ .code) : Reads (contents kind) (kind.contentsBytes entries) entries := by
  cases kind with
  | custom => exact absurd rfl hcustom
  | types =>
      exact reads_vector_of_length hlength (fun type _ => type.toBytes_ne_nil)
        fun type ht => reads_functionType .types (hentries type ht)
  | imports =>
      exact reads_vector_of_length hlength (fun entry _ => entry.toBytes_ne_nil)
        fun entry he => reads_importEntry .imports (hentries entry he)
  | functions =>
      exact reads_vector_of_length hlength (fun index _ => Bytes.ofUInt32_ne_nil index)
        fun index _ _ => reads_uint32 index
  | tables =>
      exact reads_vector_of_length hlength (fun type _ => type.toBytes_ne_nil)
        fun type ht _ => reads_tableType .tables (hentries type ht)
  | memories =>
      exact reads_vector_of_length hlength (fun limits _ => limits.toBytes_ne_nil)
        fun limits hl _ => reads_limits .memories (hentries limits hl)
  | globals =>
      exact reads_vector_of_length hlength (fun entry _ => entry.toBytes_ne_nil)
        fun entry he _ => reads_global .globals (hentries entry he)
  | exports =>
      exact reads_vector_of_length hlength (fun entry _ => entry.toBytes_ne_nil)
        fun entry _ => reads_exportEntry .exports
  | start => exact reads_uint32 entries
  | elements =>
      exact reads_vector_of_length hlength (fun segment _ => segment.toBytes_ne_nil)
        fun segment hs => reads_elementSegment .elements (hentries segment hs)
  | code => exact absurd rfl hcode
  | data =>
      exact reads_vector_of_length hlength (fun segment _ => segment.toBytes_ne_nil)
        fun segment hs => reads_dataSegment .data (hentries segment hs)
  | dataCount => exact reads_uint32 entries

/-- What is read of a section is its contents with their kind. -/
theorem Exhausts.payload {kind : SectionKind} {c : Cursor} {contents : kind.Contents}
    (h : Exhausts (Reader.contents kind) c contents) :
    Exhausts (Reader.payload kind) c ⟨kind, contents⟩ := by
  obtain ⟨d, hread, hempty⟩ := h
  exact ⟨d, bind_eq_ok_iff.2 ⟨contents, d, hread, rfl⟩, hempty⟩

/-- Well-formed contents are read back from what they are written as, in their places. -/
theorem exhausts_payload {contained : Payload} (h : contained.WellFormed) (first : Nat) :
    Exhausts (payload contained.kind) ⟨contained.toBytes, first⟩ (contained.place first) := by
  obtain ⟨kind, entries⟩ := contained
  obtain ⟨hentries, hlength⟩ := h
  by_cases hcode : kind = .code
  · subst hcode
    have hbodies : Exhausts (contents .code) _ _ := exhausts_bodies hlength first
    exact hbodies.payload
  · have hplace : Payload.place first ⟨kind, entries⟩ = ⟨kind, entries⟩ := dif_neg hcode
    rw [hplace]
    refine Exhausts.payload ?_
    by_cases hcustom : kind = .custom
    · subst hcustom
      exact exhausts_customSection entries hlength first
    · exact (reads_contents hentries hlength hcustom hcode).exhausts first

end Reader

end WasmMeter
