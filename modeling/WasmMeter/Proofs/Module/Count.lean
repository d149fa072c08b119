import WasmMeter.Proofs.Module.RoundTrip
import WasmMeter.Proofs.Reading.Operation
import WasmMeter.Proofs.Section.ReadBack

/-!
How many entries there are in a section. An entry is never written in fewer bytes than there are entries
in it, itself included, and never read from fewer bytes than it is written in. So every count stays within
the bytes behind it, and a section has no more entries, with those inside of them, than bytes.
-/
namespace WasmMeter

/-! ### Entries and what is inside of them -/

/-- The items behind the count of an immediate that has one. -/
def Immediate.itemCount : Immediate → Nat
  | branchTable targets _ => targets.length
  | valueTypes types => types.length
  | _ => 0

/-- The items of all immediates of an instruction sequence; none if the bytes are not one. -/
def codeItems (code : List UInt8) : Nat :=
  match Disassembly.ofBytes code with
  | .ok d => (d.instructions.map (·.immediate.itemCount)).sum
  | .error _ => 0

/-- A function type with its parameters and results. -/
def FunctionType.entryCount (type : FunctionType) : Nat :=
  1 + type.params.length + type.results.length

def Global.entryCount (entry : Global) : Nat := 1 + codeItems entry.init.bytes

/-- Every function, or every expression with the items inside of it. -/
def ElementItems.entryCount : ElementItems → Nat
  | indices functions => functions.length
  | expressions slots => (slots.map fun slot => 1 + codeItems slot.bytes).sum

def ElementSegment.entryCount (segment : ElementSegment) : Nat :=
  1 + codeItems (ConstExpr.optionBytes segment.offset) + segment.items.entryCount

def DataSegment.entryCount (segment : DataSegment) : Nat :=
  1 + codeItems (ConstExpr.optionBytes segment.offset)

/-- A body with its runs of local variables and what is inside of its code, whether or not the code is
ever looked at. -/
def FunctionBody.entryCount (body : FunctionBody) : Nat :=
  1 + body.locals.length + codeItems body.code

/-- The entries of a section of a kind, with all entries inside of them. -/
def SectionKind.entryCount : (kind : SectionKind) → kind.Contents → Nat
  | .types, entries => (entries.map FunctionType.entryCount).sum
  | .imports, entries => entries.length
  | .functions, typeIndices => typeIndices.length
  | .tables, entries => entries.length
  | .memories, entries => entries.length
  | .globals, entries => (entries.map Global.entryCount).sum
  | .exports, entries => entries.length
  | .elements, segments => (segments.map ElementSegment.entryCount).sum
  | .code, bodies => (bodies.map FunctionBody.entryCount).sum
  | .data, segments => (segments.map DataSegment.entryCount).sum
  | .custom, _ | .start, _ | .dataCount, _ => 0

def Payload.entryCount (payload : Payload) : Nat := payload.kind.entryCount payload.contents

/-! ### Entries and bytes -/

open Reader

/-- A value type is a single byte. -/
theorem length_types_lt (types : List ValueType) :
    types.length < (Bytes.vector (fun type => [ValueType.toByte type]) types).length :=
  Bytes.length_items_lt fun _ _ => List.cons_ne_nil _ _

/-- Every label and every value type of an immediate takes a byte. -/
theorem Immediate.itemCount_le (operand : Immediate) :
    operand.itemCount ≤ operand.toBytes.length := by
  cases operand with
  | branchTable targets default =>
      have hlt : targets.length < (Bytes.vector Bytes.ofUInt32 targets).length :=
        Bytes.length_items_lt fun index _ => Bytes.ofUInt32_ne_nil index
      rw [itemCount, toBytes, List.length_append]
      omega
  | valueTypes types => exact (length_types_lt types).le
  | _ => exact Nat.zero_le _

/-- An instruction has a byte for its opcode, and one for each item of its immediate. -/
theorem Instruction.IsRead.itemCount_lt {instruction : Instruction} (h : instruction.IsRead) :
    instruction.immediate.itemCount < instruction.toBytes.length := by
  obtain ⟨n, hn, -, hlength⟩ := yields_instruction _ _ _ (h.reads [] 0)
  have hle := instruction.immediate.itemCount_le
  have hopcode : 0 < instruction.opcode.toBytes.length := by
    cases instruction.opcode <;> exact Nat.succ_pos _
  simp only [Cursor.remaining, List.append_nil, List.length_nil] at hn
  rw [List.length_append] at hlength
  dsimp only at hlength
  omega

/-- The opcodes take bytes as well, so there are fewer items than bytes. -/
theorem codeItems_lt {code : List UInt8} (h : code ≠ []) : codeItems code < code.length := by
  unfold codeItems
  split
  · next d hd =>
    obtain ⟨hread, rfl⟩ := Disassembly.ofBytesAt_eq_ok_iff.1 hd
    have hne : d.instructions ≠ [] := by
      intro hnil
      rw [Disassembly.assemble, hnil] at h
      exact h rfl
    rw [Disassembly.assemble, List.length_flatMap]
    exact List.sum_lt_sum_of_ne_nil hne _ _ fun i hi => (hread.instructions i hi).itemCount_lt
  · exact List.length_pos_iff.2 h

theorem codeItems_le (code : List UInt8) : codeItems code ≤ code.length := by
  by_cases h : code = []
  · subst h
    exact Nat.le_refl 0
  · exact (codeItems_lt h).le

/-- The type, its parameters and its results are at most as many as its bytes. -/
theorem FunctionType.entryCount_le (type : FunctionType) :
    type.entryCount ≤ type.toBytes.length := by
  have hparams := length_types_lt type.params
  have hresults := length_types_lt type.results
  rw [entryCount, toBytes, List.length_append, List.length_cons]
  omega

/-- The global and the items of its initial value are at most as many as its bytes. -/
theorem Global.entryCount_le (entry : Global) : entry.entryCount ≤ entry.toBytes.length := by
  have hinit := codeItems_le entry.init.bytes
  have htype : entry.type.toBytes.length = 2 := rfl
  rw [entryCount, toBytes, List.length_append]
  omega

/-- An item takes a byte, be it an index or an expression. -/
theorem ElementItems.WellFormed.entryCount_le {flags : UInt32} {items : ElementItems}
    (h : items.WellFormed flags) : items.entryCount ≤ items.toBytes.length := by
  cases items with
  | indices functions => exact (Bytes.length_items_lt fun index _ => Bytes.ofUInt32_ne_nil index).le
  | expressions slots =>
      refine (Bytes.sum_lt_length_vector fun slot hslot => ?_).le
      have hlt := codeItems_lt (h.2 slot hslot).bytes_ne_nil
      omega

/-- The segment, the items of its offset and its elements are at most as many as its bytes. -/
theorem ElementSegment.WellFormed.entryCount_le {segment : ElementSegment} (h : segment.WellFormed) :
    segment.entryCount ≤ segment.toBytes.length := by
  have hflags := Bytes.length_ofUInt32_pos segment.flags
  have hoffset := codeItems_le (ConstExpr.optionBytes segment.offset)
  have hitems := h.items.entryCount_le
  simp only [entryCount, toBytes, List.length_append]
  omega

theorem DataSegment.entryCount_le (segment : DataSegment) :
    segment.entryCount ≤ segment.toBytes.length := by
  have hflags := Bytes.length_ofUInt32_pos segment.flags
  have hoffset := codeItems_le (ConstExpr.optionBytes segment.offset)
  simp only [entryCount, toBytes, List.length_append]
  omega

theorem FunctionBody.localBytes_ne_nil (run : UInt32 × ValueType) : localBytes run ≠ [] := by
  simp [localBytes]

/-- The body, its runs of locals and the items of its code are at most as many as its bytes. -/
theorem FunctionBody.entryCount_le (body : FunctionBody) :
    body.entryCount ≤ body.toBytes.length := by
  have hlocals : body.locals.length < (Bytes.vector localBytes body.locals).length :=
    Bytes.length_items_lt fun run _ => localBytes_ne_nil run
  have hcode := codeItems_le body.code
  rw [entryCount, toBytes, Bytes.length_counted, List.length_append]
  omega

/-- Well-formed contents have no more entries than bytes. -/
theorem SectionKind.entryCount_le {kind : SectionKind} {contents : kind.Contents}
    (h : kind.EntriesWellFormed contents) :
    kind.entryCount contents ≤ (kind.contentsBytes contents).length := by
  cases kind with
  | custom | start | dataCount => exact Nat.zero_le _
  | types => exact (Bytes.sum_lt_length_vector fun type _ => type.entryCount_le).le
  | imports => exact (Bytes.length_items_lt fun entry _ => entry.toBytes_ne_nil).le
  | functions => exact (Bytes.length_items_lt fun index _ => Bytes.ofUInt32_ne_nil index).le
  | tables => exact (Bytes.length_items_lt fun type _ => type.toBytes_ne_nil).le
  | memories => exact (Bytes.length_items_lt fun limits _ => limits.toBytes_ne_nil).le
  | globals => exact (Bytes.sum_lt_length_vector fun entry _ => entry.entryCount_le).le
  | exports => exact (Bytes.length_items_lt fun entry _ => entry.toBytes_ne_nil).le
  | elements =>
      exact (Bytes.sum_lt_length_vector fun segment hs => (h segment hs).entryCount_le).le
  | code => exact (Bytes.sum_lt_length_vector fun body _ => body.entryCount_le).le
  | data => exact (Bytes.sum_lt_length_vector fun segment _ => segment.entryCount_le).le

/-! ### Counts and the bytes behind them -/

namespace Reader

variable {α : Type} {r : Reader α} {P : α → Prop} {bytes : α → List UInt8}

/-- What is never written as nothing takes a byte to read. -/
theorem Yields.counted (h : Yields r fun a n => P a ∧ (bytes a).length ≤ n)
    (hne : ∀ a, P a → bytes a ≠ []) : Counted r :=
  (h.progresses fun hp => Nat.lt_of_lt_of_le (List.length_pos_iff.2 (hne _ hp.1)) hp.2).counted

theorem counted_valueType (cause : Nat → Error) : Counted (valueType cause) :=
  ((yields_valueType cause).progresses fun hn => hn ▸ Nat.one_pos).counted

variable (kind : SectionKind)

/-- A function type is read with no more entries than bytes. -/
theorem counted_functionType : Counted (functionType kind) :=
  (yields_functionType kind).counted fun type _ => type.toBytes_ne_nil

theorem counted_importEntry : Counted (importEntry kind) :=
  (yields_importEntry kind).counted fun entry _ => entry.toBytes_ne_nil

theorem counted_tableType : Counted (tableType kind) :=
  (yields_tableType kind).counted fun type _ => type.toBytes_ne_nil

theorem counted_limits : Counted (limits kind) :=
  (yields_limits kind).counted fun limits _ => limits.toBytes_ne_nil

theorem counted_global : Counted (global kind) :=
  (yields_global kind).counted fun entry _ => entry.toBytes_ne_nil

theorem counted_exportEntry : Counted (exportEntry kind) :=
  (yields_exportEntry kind).plain.counted fun entry _ => entry.toBytes_ne_nil

theorem counted_constExpr : Counted (constExpr kind) :=
  (yields_constExpr kind).counted fun _ h => h.bytes_ne_nil

/-- A segment is read with no more entries than bytes, under each of its eight flags. -/
theorem counted_elementSegment : Counted (elementSegment kind) :=
  (yields_elementSegment kind).counted fun segment _ => segment.toBytes_ne_nil

/-- A data segment is read with no more entries than bytes. -/
theorem counted_dataSegment : Counted (dataSegment kind) :=
  (yields_dataSegment kind).counted fun segment _ => segment.toBytes_ne_nil

theorem counted_localRun : Counted (localRun kind) :=
  (yields_localRun kind).plain.counted fun run _ => FunctionBody.localBytes_ne_nil run

/-- The code of a body is skipped, but its length is not. -/
theorem counted_functionBody : Counted (functionBody kind) :=
  (yields_functionBody kind).plain.counted fun body _ => body.toBytes_ne_nil

end Reader

/-- The entries of a section that was read, with those inside of them, are no more than its bytes. -/
theorem Module.entryCount_le {input : List UInt8} {m : Module} (h : Module.ofBytes input = .ok m)
    {s : Section} (hs : s ∈ m.sections) :
    ∃ first last, s.bounds? = some (first, last) ∧ first ≤ last ∧ last ≤ input.length ∧
      s.payload.entryCount ≤ last - first := by
  obtain ⟨before, after, hsplit⟩ := List.append_of_mem hs
  obtain ⟨size, contents, first, -, hlength, -, -, hbounds, hlies, hpayload⟩ :=
    bounds_of_ofBytes h hsplit
  obtain ⟨hwell, hle⟩ := wellFormed_of_exhausts s.kind hlength hpayload
  refine ⟨first, _, hbounds, Nat.le_add_right _ _, hlies.extract_eq.1, ?_⟩
  rw [Nat.add_sub_cancel_left]
  exact (SectionKind.entryCount_le hwell.entries).trans hle

/-- No count outgrows the input. The items of every sequence, in a section or in the immediate of an
instruction, take at least one byte each: indices, value types, entries of sections, expressions, runs of
local variables. So a count that is greater than the number of bytes behind it is refused, and an answer
has as many items as the count says, fewer than the bytes that were taken. In a module that was read, a
section has no more entries, with all entries inside of them, than its contents have bytes. -/
theorem counts_within_input :
    (Counted uint32 ∧ Counted immediateType ∧
      ∀ kind, Counted (entryType kind) ∧ Counted (functionType kind) ∧ Counted (importEntry kind) ∧
        Counted (tableType kind) ∧ Counted (limits kind) ∧ Counted (global kind) ∧
        Counted (exportEntry kind) ∧ Counted (elementSegment kind) ∧ Counted (constExpr kind) ∧
        Counted (functionBody kind) ∧ Counted (localRun kind) ∧ Counted (dataSegment kind)) ∧
    ∀ input m, Module.ofBytes input = .ok m → ∀ s ∈ m.sections,
      ∃ first last, s.bounds? = some (first, last) ∧ first ≤ last ∧ last ≤ input.length ∧
        s.payload.entryCount ≤ last - first :=
  ⟨⟨progresses_uint32.counted, counted_valueType _, fun kind => ⟨counted_valueType _,
    counted_functionType kind, counted_importEntry kind, counted_tableType kind,
    counted_limits kind, counted_global kind, counted_exportEntry kind,
    counted_elementSegment kind, counted_constExpr kind, counted_functionBody kind,
    counted_localRun kind, counted_dataSegment kind⟩⟩,
    fun _ _ h _ hs => Module.entryCount_le h hs⟩

/-- One type with two parameters and a result, and one segment with one expression. -/
def Module.nested : List UInt8 := [
  0x00, 0x61, 0x73, 0x6d, 0x01, 0x00, 0x00, 0x00,
  0x01, 0x07, 0x01, 0x60, 0x02, 0x7f, 0x7e, 0x01, 0x7c,
  0x09, 0x09, 0x01, 0x04, 0x41, 0x00, 0x0b, 0x01, 0xd0, 0x70, 0x0b]

theorem counts_within_nested :
    ∃ m, Module.ofBytes Module.nested = .ok m ∧
      m.sections.map (·.payload.entryCount) = [4, 2] ∧ ∀ s ∈ m.sections,
        ∃ first last, s.bounds? = some (first, last) ∧ first ≤ last ∧
          last ≤ Module.nested.length ∧ s.payload.entryCount ≤ last - first := by
  have hcounts : (Module.ofBytes Module.nested).toOption.map
      (·.sections.map (·.payload.entryCount)) = some [4, 2] := by decide +kernel
  cases h : Module.ofBytes Module.nested with
  | error e =>
      rw [h] at hcounts
      cases hcounts
  | ok m =>
      rw [h] at hcounts
      exact ⟨m, rfl, Option.some.inj hcounts, counts_within_input.2 _ _ h⟩

end WasmMeter
