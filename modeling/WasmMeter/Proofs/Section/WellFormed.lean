import Mathlib.Tactic.MkIffOfInductiveProp
import WasmMeter.Proofs.Module.Frames
import WasmMeter.Proofs.Reading.Contents
import WasmMeter.Section.Write

/-!
Well-formed contents of sections. What an entry keeps besides its flags has to agree with them, or it
would be written in another form than the one that the flags announce. Whatever is read is
well-formed, and is not written in more bytes than it was read from.
-/
namespace WasmMeter

/-! ### Entries -/

/-- The form byte is the only one that there is. -/
def FunctionType.WellFormed (type : FunctionType) : Prop := type.form = functionForm

instance (type : FunctionType) : Decidable type.WellFormed :=
  inferInstanceAs (Decidable (type.form = FunctionType.functionForm))

/-- There is a maximum if the flags announce one, and bounds that are not said to have 64 bits have
32. -/
@[mk_iff]
structure Limits.WellFormed (limits : Limits) : Prop where
  flags : validFlags limits.flags = true
  max : limits.max.isSome = hasMax limits.flags
  narrow : isWide limits.flags = false →
    limits.min.toNat < 2 ^ 32 ∧ ∀ bound ∈ limits.max, bound.toNat < 2 ^ 32

instance (limits : Limits) : Decidable limits.WellFormed :=
  -- Looks at the bound that is there; the numbers of 64 bits are too many to look at all of them.
  have : Decidable (∀ bound ∈ limits.max, bound.toNat < 2 ^ 32) := Option.decidableForallMem _
  decidable_of_iff _ (Limits.wellFormed_iff limits).symm

def ImportType.WellFormed : ImportType → Prop
  | .table type => type.limits.WellFormed
  | .memory limits => limits.WellFormed
  | _ => True

instance : (type : ImportType) → Decidable type.WellFormed
  | .function _ => instDecidableTrue
  | .table type => inferInstanceAs (Decidable type.limits.WellFormed)
  | .memory limits => inferInstanceAs (Decidable limits.WellFormed)
  | .global _ => instDecidableTrue

/-- The bytes are an instruction sequence and nothing else. -/
def ConstExpr.WellFormed (expression : ConstExpr) : Prop :=
  (Disassembly.ofBytes expression.bytes).isOk = true

instance (expression : ConstExpr) : Decidable expression.WellFormed :=
  inferInstanceAs (Decidable (_ = true))

/-- The items are of the kind that the flags announce, and expressions are well-formed. -/
def ElementItems.WellFormed (flags : UInt32) : ElementItems → Prop
  | .indices _ => ElementSegment.hasExpressions flags = false
  | .expressions slots =>
      ElementSegment.hasExpressions flags = true ∧ ∀ slot ∈ slots, slot.WellFormed

instance (flags : UInt32) : (items : ElementItems) → Decidable (items.WellFormed flags)
  | .indices _ => inferInstanceAs (Decidable (_ = false))
  | .expressions _ => inferInstanceAs (Decidable (_ ∧ _))

/-- The parts of a segment are there that the flags announce. A table that is not named is the first
one. -/
@[mk_iff]
structure ElementSegment.WellFormed (segment : ElementSegment) : Prop where
  flags : segment.flags ≤ 7
  table : namesTable segment.flags = false → segment.table = 0
  offset : segment.offset.isSome = isActive segment.flags
  expression : ∀ expression ∈ segment.offset, expression.WellFormed
  elementType : segment.elementType.isSome = namesType segment.flags
  items : segment.items.WellFormed segment.flags

instance (segment : ElementSegment) : Decidable segment.WellFormed :=
  decidable_of_iff _ (ElementSegment.wellFormed_iff segment).symm

/-- A memory that is not named is the first one, and only a passive segment has no offset. -/
@[mk_iff]
structure DataSegment.WellFormed (segment : DataSegment) : Prop where
  flags : segment.flags ≤ 2
  memory : segment.flags ≠ 2 → segment.memory = 0
  offset : segment.offset.isSome = true ↔ segment.flags ≠ 1
  expression : ∀ expression ∈ segment.offset, expression.WellFormed

instance (segment : DataSegment) : Decidable segment.WellFormed :=
  decidable_of_iff _ (DataSegment.wellFormed_iff segment).symm

/-! ### Contents -/

/-- Every entry agrees with its flags. -/
def SectionKind.EntriesWellFormed : (kind : SectionKind) → kind.Contents → Prop
  | .types, entries => ∀ type ∈ entries, type.WellFormed
  | .imports, entries => ∀ entry ∈ entries, entry.type.WellFormed
  | .tables, entries => ∀ type ∈ entries, type.limits.WellFormed
  | .memories, entries => ∀ limits ∈ entries, limits.WellFormed
  | .globals, entries => ∀ entry ∈ entries, entry.init.WellFormed
  | .elements, segments => ∀ segment ∈ segments, segment.WellFormed
  | .data, segments => ∀ segment ∈ segments, segment.WellFormed
  | _, _ => True

instance : (kind : SectionKind) → (contents : kind.Contents) →
    Decidable (kind.EntriesWellFormed contents)
  | .types, entries => inferInstanceAs (Decidable (∀ type ∈ entries, type.WellFormed))
  | .imports, entries => inferInstanceAs (Decidable (∀ entry ∈ entries, entry.type.WellFormed))
  | .tables, entries => inferInstanceAs (Decidable (∀ type ∈ entries, type.limits.WellFormed))
  | .memories, entries => inferInstanceAs (Decidable (∀ limits ∈ entries, limits.WellFormed))
  | .globals, entries => inferInstanceAs (Decidable (∀ entry ∈ entries, entry.init.WellFormed))
  | .elements, segments => inferInstanceAs (Decidable (∀ segment ∈ segments, segment.WellFormed))
  | .data, segments => inferInstanceAs (Decidable (∀ segment ∈ segments, segment.WellFormed))
  | .custom, _ | .functions, _ | .exports, _ | .start, _ | .code, _ | .dataCount, _ =>
      instDecidableTrue

/-- The entries agree with their flags, and all lengths are 32-bit integers. The length of the
contents is the greatest of them: names, expressions and bodies are parts of the contents, and no
entry of a sequence is written in less than one byte. -/
@[mk_iff]
structure Payload.WellFormed (payload : Payload) : Prop where
  entries : payload.kind.EntriesWellFormed payload.contents
  length : payload.toBytes.length < 2 ^ 32

instance (payload : Payload) : Decidable payload.WellFormed :=
  decidable_of_iff _ (Payload.wellFormed_iff payload).symm

/-! ### What is read is well-formed -/

namespace Reader

variable {α β : Type} {c d : Cursor} {P : α → Nat → Prop}

/-- A choice that was made before is known to both branches. -/
theorem Yields.ite {r other : Reader α} {condition : Prop} [Decidable condition]
    (hr : condition → Yields r P) (hother : ¬condition → Yields other P) :
    Yields (if condition then r else other) P := by
  split
  · next h => exact hr h
  · next h => exact hother h

variable (kind : SectionKind)

theorem yields_name : Yields (name kind) fun name n => (Bytes.ofName name).length ≤ n := by
  refine yields_position_bind fun start => yields_bytes.bind fun bytes n hn => ?_
  split
  · next name hname =>
    refine yields_pure ?_
    have hbytes : name.toUTF8.data.toList = bytes := by
      unfold String.fromUTF8? at hname
      split at hname
      · cases hname
        rfl
      · cases hname
    rwa [Bytes.ofName, hbytes]
  · exact yields_throw _

/-- The form of a type that was read is the only one there is. -/
theorem yields_functionType : Yields (functionType kind) fun type n =>
    type.WellFormed ∧ type.toBytes.length ≤ n := by
  refine yields_position_bind fun start => yields_byte.bind fun form n hn => ?_
  split
  · next hform =>
    refine (yields_valueTypes _).bind fun params p hp =>
      (yields_valueTypes _).bind fun results q hq => yields_pure ⟨hform, ?_⟩
    simp only [FunctionType.toBytes, List.length_append, List.length_cons]
    omega
  · exact yields_throw _

/-- A bound of 32 bits stays within them, and a wide one is kept in full. -/
theorem yields_bound (flags : UInt8) : Yields (bound flags) fun bound n =>
    (Limits.isWide flags = false → bound.toNat < 2 ^ 32) ∧
      (Limits.boundBytes flags bound).length ≤ n := by
  unfold bound Limits.boundBytes
  split
  · next h => exact yields_uint64.mono fun _ _ hn => ⟨by simp [h], hn⟩
  · exact yields_uint32.map fun value n hn => ⟨fun _ => by simpa using value.toNat_lt, by simpa using hn⟩

/-- The flags that were read say whether there is a maximum and how wide the bounds are. -/
theorem yields_limits : Yields (limits kind) fun limits n =>
    limits.WellFormed ∧ limits.toBytes.length ≤ n := by
  rw [limits_eq]
  refine yields_position_bind fun start => yields_byte.bind fun flags n hn =>
    .ite (fun hflags => ?_) fun _ => yields_throw _
  have hbound := yields_bound flags
  refine hbound.bind fun min p hmin => ?_
  have hmax : Yields (if Limits.hasMax flags then some <$> bound flags else pure none)
      fun max q => max.isSome = Limits.hasMax flags ∧
        (Limits.isWide flags = false → ∀ bound ∈ max, bound.toNat < 2 ^ 32) ∧
          ((max.map (Limits.boundBytes flags)).getD []).length ≤ q := by
    refine .ite (fun h => hbound.map fun max q hmax => ?_) fun h => yields_pure ?_
    · exact ⟨h.symm, fun hw bound hb => Option.mem_some.1 hb ▸ hmax.1 hw, hmax.2⟩
    · exact ⟨by simpa using h, by simp⟩
  refine hmax.bind fun max q hmax => yields_pure ⟨⟨hflags, hmax.1, fun hw =>
    ⟨hmin.1 hw, hmax.2.1 hw⟩⟩, ?_⟩
  have hfirst := hmin.2
  have hsecond := hmax.2.2
  simp only [Limits.toBytes, List.length_append, List.length_cons]
  omega

theorem yields_tableType : Yields (tableType kind) fun type n =>
    type.limits.WellFormed ∧ type.toBytes.length ≤ n := by
  refine (yields_valueType _).bind fun element n hn => (yields_limits kind).bind
    fun limits p hlimits => yields_pure ⟨hlimits.1, ?_⟩
  have hlength := hlimits.2
  simp only [TableType.toBytes, List.length_cons]
  omega

/-- The mutability is one byte, whatever it says. -/
theorem yields_globalType : Yields (globalType kind) fun type n => type.toBytes.length ≤ n := by
  refine (yields_valueType _).bind fun content n hn => yields_position_bind fun start =>
    yields_byte.bind fun b p hp => ?_
  have hlength (isMutable : Bool) : (GlobalType.toBytes ⟨content, isMutable⟩).length ≤ n + (p + 0) := by
    rw [hn, hp]
    exact Nat.le_refl 2
  split
  · exact yields_pure (hlength false)
  · exact yields_pure (hlength true)
  · exact yields_throw _

theorem yields_externalKind (flaw : SectionFlaw) :
    Yields (externalKind kind flaw) fun _ n => n = 1 := by
  refine yields_position_bind fun start => yields_byte.bind fun b n hn => ?_
  split
  · exact yields_pure hn
  · exact yields_throw _

/-- What is read behind the kind of an import is as well-formed as its limits are. -/
theorem yields_importType (external : ExternalKind) : Yields (importType kind external)
    fun type n => type.WellFormed ∧ type.toBytes.length ≤ n := by
  cases external with
  | function => exact yields_uint32.map fun _ _ hn => ⟨trivial, hn⟩
  | table => exact (yields_tableType kind).map fun _ _ h => h
  | memory => exact (yields_limits kind).map fun _ _ h => h
  | global => exact (yields_globalType kind).map fun _ _ hn => ⟨trivial, hn⟩

/-- Names are written with the shortest length, which may be shorter than the one that was read. -/
theorem yields_importEntry : Yields (importEntry kind) fun entry n =>
    entry.type.WellFormed ∧ entry.toBytes.length ≤ n := by
  refine (yields_name kind).bind fun moduleName n hn => (yields_name kind).bind fun fieldName p hp =>
    (yields_externalKind kind _).bind fun external q hq => (yields_importType kind external).bind
      fun type r htype => yields_pure ⟨htype.1, ?_⟩
  have hlength := htype.2
  simp only [Import.toBytes, List.length_append, List.length_cons]
  omega

theorem yields_exportEntry : Yields (exportEntry kind) fun entry n =>
    entry.toBytes.length ≤ n := by
  refine (yields_name kind).bind fun name n hn => (yields_externalKind kind _).bind
    fun external p hp => yields_uint32.bind fun index q hq => yields_pure ?_
  simp only [Export.toBytes, List.length_append, List.length_cons]
  omega

/-- The bytes of an expression are those that its instructions were read from. -/
theorem yields_constExpr : Yields (constExpr kind) fun expression n =>
    expression.WellFormed ∧ expression.bytes.length ≤ n := by
  refine yields_of_source fun {c expression e} h => ?_
  obtain ⟨⟨d, source⟩, middle, hread, h⟩ := bind_eq_ok_iff.1 h
  obtain ⟨rfl, rfl⟩ := pure_eq_ok_iff.1 h
  obtain ⟨hread, hsource⟩ := withSource_eq_ok_iff.1 (adaptExcept_eq_ok_iff.1 hread)
  obtain ⟨hd, hu⟩ := Disassembly.read_eq_ok hread
  obtain rfl : d.assemble = source := by
    rw [← hsource, take_unread hu (hd.reads.position_eq hu hread)]
  have hok : Disassembly.ofBytes d.assemble = .ok d :=
    Disassembly.ofBytesAt_eq_ok_iff.2 ⟨hd, rfl⟩
  refine ⟨d.assemble, hu, ?_, Nat.le_refl _⟩
  rw [ConstExpr.WellFormed, hok]
  rfl

/-- The bytes of the first value are kept as they were. -/
theorem yields_global : Yields (global kind) fun entry n =>
    entry.init.WellFormed ∧ entry.toBytes.length ≤ n := by
  refine (yields_globalType kind).bind fun type n hn => (yields_constExpr kind).bind
    fun init p hinit => yields_pure ⟨hinit.1, ?_⟩
  have hlength := hinit.2
  simp only [Global.toBytes, List.length_append]
  omega

/-- The flags that choose the reader are those that the items agree with. -/
theorem yields_elementItems (flags : UInt32) : Yields (elementItems kind flags) fun items n =>
    items.WellFormed flags ∧ items.toBytes.length ≤ n := by
  unfold elementItems
  refine .ite (fun h => ?_) fun h => ?_
  · exact (yields_vector (yields_constExpr kind)).map fun slots n hslots =>
      ⟨⟨h, hslots.1⟩, hslots.2⟩
  · exact (yields_plain yields_uint32).map fun functions n hfunctions =>
      ⟨eq_false_of_ne_true h, hfunctions⟩

/-- An optional expression is there under its condition. -/
theorem yields_optionalExpr (condition : Prop) [Decidable condition] :
    Yields (if condition then some <$> constExpr kind else pure none) fun offset n =>
      offset.isSome = decide condition ∧ (∀ expression ∈ offset, expression.WellFormed) ∧
        (ConstExpr.optionBytes offset).length ≤ n := by
  refine .ite (fun h => (yields_constExpr kind).map fun expression n hexpression => ?_)
    fun h => yields_pure ?_
  · exact ⟨by simp [h], fun other ho => Option.mem_some.1 ho ▸ hexpression.1, hexpression.2⟩
  · exact ⟨by simp [h], by simp, by simp [ConstExpr.optionBytes]⟩

/-- A part is read if the flags announce it and is then there; any other part is the one that is meant
if nothing is said. -/
theorem yields_elementSegment : Yields (elementSegment kind) fun segment n =>
    segment.WellFormed ∧ segment.toBytes.length ≤ n := by
  rw [elementSegment_eq]
  refine yields_position_bind fun start => yields_uint32.bind fun flags n hn =>
    .ite (fun _ => yields_throw _) fun hflags => ?_
  have htable : Yields (if ElementSegment.namesTable flags then uint32 else pure 0) fun table p =>
      (ElementSegment.namesTable flags = false → table = 0) ∧
        (if ElementSegment.namesTable flags then Bytes.ofUInt32 table else []).length ≤ p :=
    .ite (fun h => yields_uint32.mono fun table p hp => ⟨by simp [h], by simpa [h] using hp⟩)
      fun h => yields_pure ⟨fun _ => rfl, by simp [h]⟩
  have htype : Yields (if ElementSegment.namesType flags then some <$> byte else pure none)
      fun elementType p => elementType.isSome = ElementSegment.namesType flags ∧
        elementType.toList.length ≤ p :=
    .ite (fun h => yields_byte.map fun b p hp => ⟨by simp [h], by simp [hp]⟩)
      fun h => yields_pure ⟨by simpa using h, by simp⟩
  refine htable.bind fun table p htable => (yields_optionalExpr kind _).bind fun offset q hoffset =>
    htype.bind fun elementType r htype => (yields_elementItems kind flags).bind fun items t hitems =>
      yields_pure ⟨⟨UInt32.not_lt.1 hflags, htable.1, ?_, hoffset.2.1, htype.1, hitems.1⟩, ?_⟩
  · rw [hoffset.1, Bool.decide_eq_true]
  · obtain ⟨-, htable⟩ := htable
    obtain ⟨-, -, hoffset⟩ := hoffset
    obtain ⟨-, htype⟩ := htype
    obtain ⟨-, hitems⟩ := hitems
    simp only [ElementSegment.toBytes, List.length_append]
    omega

/-- The same for data, where the flags are a number below three. -/
theorem yields_dataSegment : Yields (dataSegment kind) fun segment n =>
    segment.WellFormed ∧ segment.toBytes.length ≤ n := by
  rw [dataSegment_eq]
  refine yields_position_bind fun start => yields_uint32.bind fun flags n hn =>
    .ite (fun _ => yields_throw _) fun hflags => ?_
  have hmemory : Yields (if flags = 2 then uint32 else pure 0) fun memory p =>
      (flags ≠ 2 → memory = 0) ∧
        (if flags = 2 then Bytes.ofUInt32 memory else []).length ≤ p :=
    .ite (fun h => yields_uint32.mono fun memory p hp => ⟨by simp [h], by simpa [h] using hp⟩)
      fun h => yields_pure ⟨fun _ => rfl, by simp [h]⟩
  refine hmemory.bind fun memory p hmemory => (yields_optionalExpr kind _).bind
    fun offset q hoffset => yields_bytes.bind fun data r hdata =>
      yields_pure ⟨⟨UInt32.not_lt.1 hflags, hmemory.1, ?_, hoffset.2.1⟩, ?_⟩
  · rw [hoffset.1, decide_eq_true_iff]
  · obtain ⟨-, hmemory⟩ := hmemory
    obtain ⟨-, -, hoffset⟩ := hoffset
    simp only [DataSegment.toBytes, List.length_append]
    omega

/-! ### Bodies and whole contents -/

/-- A window has the length that was asked for and takes as many bytes. -/
theorem yields_window (length : Nat) :
    Yields (window length) fun w n => w.remaining = length ∧ n = length := by
  refine yields_of_source fun {c w d} h => ?_
  obtain ⟨-, hlength, hu, -⟩ := window_eq_ok_iff.1 h
  exact ⟨w.unread, hu, hlength, hlength⟩

/-- A reader within a window takes nothing from the surrounding bytes. -/
theorem Yields.within {r : Reader α} (h : Yields r P) (w : Cursor) :
    Yields (within w r) fun answer n =>
      n = 0 ∧ ∃ m, w.remaining = answer.2.remaining + m ∧ P answer.1 m := by
  intro c answer d hwithin
  obtain ⟨hr, rfl⟩ := within_eq_ok_iff.1 hwithin
  exact ⟨0, rfl, rfl, h _ _ _ hr⟩

theorem yields_localRun : Yields (localRun kind) fun run n =>
    (FunctionBody.localBytes run).length ≤ n := by
  refine yields_uint32.bind fun count n hn => (yields_valueType _).bind fun type p hp =>
    yields_pure ?_
  simp only [FunctionBody.localBytes, List.length_append, List.length_singleton]
  omega

/-- The code of a body is all that its locals leave. -/
theorem yields_bodyContents : Yields (bodyContents kind) fun body n =>
    (Bytes.vector FunctionBody.localBytes body.locals ++ body.code).length ≤ n := by
  refine (yields_plain (yields_localRun kind)).bind fun locals n hlocals =>
    yields_position_bind fun start => yields_takeRest.bind fun code p hcode => yields_pure ?_
  rw [List.length_append]
  dsimp only
  omega

/-- A body was read from its window, and its length may be written shorter than it was read. -/
theorem yields_functionBody : Yields (functionBody kind) fun body n => body.toBytes.length ≤ n := by
  refine yields_uint32.bind fun size n hn => yields_position_bind fun start => ?_
  have hwindow : Yields (mapEnd (fun _ => kind.malformed .bodyExceedsSection start)
      (window size.toNat)) fun w m => w.remaining = size.toNat ∧ m = size.toNat :=
    fun c w d h => yields_window size.toNat c w d (mapEnd_eq_ok_iff.1 h)
  refine hwindow.bind fun inside p hinside => ((yields_bodyContents kind).within inside).bind
    fun answer q hanswer => yields_pure ?_
  obtain ⟨hlength, hp⟩ := hinside
  obtain ⟨-, m, hm, hbody⟩ := hanswer
  have hcount := Bytes.length_ofLength_le (m := (Bytes.vector FunctionBody.localBytes
    answer.1.locals ++ answer.1.code).length) (n := size) (by omega)
  rw [FunctionBody.toBytes, Bytes.length_counted]
  omega

theorem yields_customSection : Yields (customSection kind) fun custom n =>
    custom.toBytes.length ≤ n := by
  refine (yields_name kind).bind fun name n hn => yields_takeRest.bind fun data p hp =>
    yields_pure ?_
  simp only [CustomSection.toBytes, List.length_append]
  omega

/-- What is read as the contents of a section is well-formed and not written in more bytes. -/
theorem yields_contents : (kind : SectionKind) → Yields (contents kind) fun contents n =>
    kind.EntriesWellFormed contents ∧ (kind.contentsBytes contents).length ≤ n
  | .custom => (yields_customSection .custom).plain
  | .types => yields_vector (yields_functionType .types)
  | .imports => yields_vector (yields_importEntry .imports)
  | .functions => (yields_plain yields_uint32).plain
  | .tables => yields_vector (yields_tableType .tables)
  | .memories => yields_vector (yields_limits .memories)
  | .globals => yields_vector (yields_global .globals)
  | .exports => (yields_plain (yields_exportEntry .exports)).plain
  | .start => yields_uint32.plain
  | .elements => yields_vector (yields_elementSegment .elements)
  | .code => (yields_plain (yields_functionBody .code)).plain
  | .data => yields_vector (yields_dataSegment .data)
  | .dataCount => yields_uint32.plain

/-- Contents that were read from a section are well-formed, and no longer than the section. -/
theorem wellFormed_of_exhausts {bytes : List UInt8} {first : Nat} {contained : Payload}
    (hlength : bytes.length < 2 ^ 32) (h : Exhausts (payload kind) ⟨bytes, first⟩ contained) :
    contained.WellFormed ∧ contained.toBytes.length ≤ bytes.length := by
  obtain ⟨d, hread, hempty⟩ := h
  obtain ⟨contents, e, hcontents, hpure⟩ := bind_eq_ok_iff.1 hread
  obtain ⟨rfl, rfl⟩ := pure_eq_ok_iff.1 hpure
  obtain ⟨n, hn, hentries, hbytes⟩ := yields_contents kind _ _ _ hcontents
  have hle : (kind.contentsBytes contents).length ≤ bytes.length := by
    change bytes.length = e.remaining + n at hn
    omega
  exact ⟨⟨hentries, Nat.lt_of_le_of_lt hle hlength⟩, hle⟩

end Reader

end WasmMeter
