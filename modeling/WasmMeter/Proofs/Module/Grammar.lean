import WasmMeter.Proofs.Module.ReadBack

/-!
The grammar of binary modules. Bytes are read as a module exactly if they are the header and a row
of frames behind it. A frame is the byte of a kind, a length and contents of that length, and
whether it is valid is decided by these bytes alone. The kinds have to be in order, and there is one
way at most to cut bytes into valid frames, so the sections are those of the frames.
-/
namespace WasmMeter

open Reader

/-- The bytes of a section: the kind, the length of the contents as it is written, and the contents.
-/
structure Frame where
  kind : SectionKind
  size : List UInt8
  contents : List UInt8

namespace Frame

def bytes (f : Frame) : List UInt8 := f.kind.toByte :: (f.size ++ f.contents)

/-- The length, in however many groups, is that of the contents, and the contents are read by
themselves as those of a section of the kind, up to their last byte. -/
structure Valid (f : Frame) : Prop where
  size : ∃ length, Exhausts uint32 ⟨f.size, 0⟩ length ∧ length.toNat = f.contents.length
  contents : ∃ payload, Exhausts (Reader.payload f.kind) ⟨f.contents, 0⟩ payload

/-- The section is what the frame is read as where its contents begin at some offset. Only the
bounds of the section and the offsets of code depend on the offset. -/
def IsReadAs (f : Frame) (s : Section) : Prop :=
  ∃ payload first, Exhausts (Reader.payload f.kind) ⟨f.contents, 0⟩ payload ∧
    s = ⟨payload.move first, .read first (first + f.contents.length) f.bytes false⟩

/-- The input is the header and the frames, which are valid and in order. -/
structure Forms (frames : List Frame) (input : List UInt8) : Prop where
  bytes : input = Module.header ++ frames.flatMap Frame.bytes
  valid : ∀ f ∈ frames, f.Valid
  ordered : (frames.filterMap (·.kind.rank?)).Pairwise (· < ·)

variable {f f' : Frame} {frames frames' : List Frame} {s : Section}

/-- The length is one that is read whatever stands behind it. -/
theorem Valid.reads_size (h : f.Valid) :
    f.contents.length < 2 ^ 32 ∧ Reads uint32 f.size f.contents.length.toUInt32 := by
  obtain ⟨length, ⟨d, hread, hempty⟩, hlength⟩ := h.size
  obtain ⟨bytes, hu, hreads⟩ := selfDelimiting_uint32.reads uniform_uint32 hread
  have hrest : d.unread = [] := List.isEmpty_iff.1 hempty
  have hbytes : f.size = bytes := by
    rw [hrest, List.append_nil] at hu
    exact hu
  rw [← hlength, hbytes]
  refine ⟨length.toNat_lt, ?_⟩
  rwa [show length.toNat.toUInt32 = length from UInt32.ofNat_toNat]

/-! ### Frames and sections -/

theorem IsReadAs.kind_eq (h : f.IsReadAs s) : s.kind = f.kind := by
  obtain ⟨payload, first, ⟨d, hread, -⟩, rfl⟩ := h
  show (payload.move first).kind = f.kind
  rw [Payload.move, Payload.kind_modify]
  exact kind_of_payload hread

theorem IsReadAs.source_eq (h : f.IsReadAs s) : s.source = f.bytes := by
  obtain ⟨payload, first, -, rfl⟩ := h
  rfl

/-- A valid frame is a section wherever it begins. -/
theorem Valid.exists_isReadAt (h : f.Valid) (start : Nat) :
    ∃ s : Section, s.IsReadAt start ∧ f.IsReadAs s := by
  obtain ⟨hlength, hsize⟩ := h.reads_size
  obtain ⟨payload, hpayload⟩ := h.contents
  let first := start + 1 + f.size.length
  have hs : f.IsReadAs
      ⟨payload.move first, .read first (first + f.contents.length) f.bytes false⟩ :=
    ⟨payload, first, hpayload, rfl⟩
  refine ⟨_, ⟨f.size, f.contents, hlength, hsize, ?_, ?_⟩, hs⟩
  · rw [hs.kind_eq]
    exact exhausts_payload_iff.2 ⟨payload, hpayload, rfl⟩
  · rw [hs.kind_eq]
    rfl

/-- The bytes of a section are a valid frame. -/
theorem exists_of_isReadAt {start : Nat} (h : s.IsReadAt start) :
    ∃ f : Frame, f.Valid ∧ f.IsReadAs s := by
  obtain ⟨size, contents, hlength, hsize, hpayload, horigin⟩ := h
  obtain ⟨p, hp, hmoved⟩ := exhausts_payload_iff.1 hpayload
  have hcount : contents.length.toUInt32.toNat = contents.length :=
    UInt32.toNat_ofNat_of_lt' hlength
  have hs : s = ⟨p.move (start + 1 + size.length), .read (start + 1 + size.length)
      (start + 1 + size.length + contents.length) (s.kind.toByte :: (size ++ contents)) false⟩ := by
    rw [hmoved, ← horigin]
  exact ⟨⟨s.kind, size, contents⟩, ⟨⟨_, hsize.exhausts 0, hcount⟩, p, hp⟩, p, _, hp, hs⟩

/-! ### Rows of frames -/

section

variable {sections : List Section}

theorem flatMap_source (h : List.Forall₂ IsReadAs frames sections) :
    sections.flatMap Section.source = frames.flatMap bytes := by
  induction h with
  | nil => rfl
  | cons head tail ih => rw [List.flatMap_cons, List.flatMap_cons, head.source_eq, ih]

theorem filterMap_rank? (h : List.Forall₂ IsReadAs frames sections) :
    Section.ranks sections = frames.filterMap (·.kind.rank?) := by
  induction h with
  | nil => rfl
  | @cons f s frames sections head tail ih =>
      rw [Module.ranks_cons, head.kind_eq, ih, List.filterMap_cons]
      cases f.kind.rank? <;> rfl

/-- Valid frames in order, one behind another, are sections wherever the first of them begins. The
induction is on the frames; the rank of what stands in front is general. -/
theorem exists_sections (h : ∀ f ∈ frames, f.Valid) (rank : Option Nat) (start : Nat)
    (ho : (rank.toList ++ frames.filterMap (·.kind.rank?)).Pairwise (· < ·)) :
    ∃ sections, Module.Frames rank start sections ∧ List.Forall₂ IsReadAs frames sections := by
  induction frames generalizing rank start with
  | nil => exact ⟨[], .nil, .nil⟩
  | cons f frames ih =>
      obtain ⟨hf, hframes⟩ := List.forall_mem_cons.1 h
      obtain ⟨s, hread, hs⟩ := hf.exists_isReadAt start
      have hfront : (rank.toList ++ (s.kind.rank?.toList ++
          frames.filterMap (·.kind.rank?))).Pairwise (· < ·) := by
        rw [List.filterMap_cons] at ho
        rw [hs.kind_eq]
        cases hr : f.kind.rank? <;> simpa [hr] using ho
      obtain ⟨next, follows, hrest⟩ := Module.exists_nextRank?_iff.2 hfront
      obtain ⟨sections, hread', hsections⟩ := ih hframes next (start + s.source.length) hrest
      exact ⟨s :: sections, .cons follows hread hread', .cons hs hsections⟩

/-- Sections that follow one another are valid frames. -/
theorem exists_frames {rank : Option Nat} {start : Nat} (h : Module.Frames rank start sections) :
    ∃ frames : List Frame, (∀ f ∈ frames, f.Valid) ∧ List.Forall₂ IsReadAs frames sections := by
  induction h with
  | nil => exact ⟨[], List.forall_mem_nil _, .nil⟩
  | cons follows frame rest ih =>
      obtain ⟨f, hf, hs⟩ := exists_of_isReadAt frame
      obtain ⟨frames, hframes, hsections⟩ := ih
      exact ⟨f :: frames, List.forall_mem_cons.2 ⟨hf, hframes⟩, .cons hs hsections⟩

end

/-! ### There is one way at most -/

/-- A valid frame in front of other bytes is found again: its kind is the first byte, its length is
self-delimiting, and this says where its contents end. -/
theorem Valid.eq_of_append (h : f.Valid) (h' : f'.Valid) {rest rest' : List UInt8}
    (heq : f.bytes ++ rest = f'.bytes ++ rest') : f = f' ∧ rest = rest' := by
  obtain ⟨kind, size, contents⟩ := f
  obtain ⟨kind', size', contents'⟩ := f'
  obtain ⟨hlength, hsize⟩ := h.reads_size
  obtain ⟨hlength', hsize'⟩ := h'.reads_size
  simp only [bytes, List.cons_append, List.append_assoc, List.cons.injEq] at heq
  obtain ⟨hbyte, htail⟩ := heq
  have hkind : kind = kind' := SectionKind.toByte_inj hbyte
  obtain ⟨hcount, rfl, hbehind⟩ := hsize.eq_of_append hsize' htail
  have hcontents : contents.length = contents'.length := by
    have hnat := congrArg UInt32.toNat hcount
    rwa [UInt32.toNat_ofNat_of_lt' hlength, UInt32.toNat_ofNat_of_lt' hlength'] at hnat
  obtain ⟨rfl, hrest⟩ := List.append_inj hbehind hcontents
  exact ⟨by rw [hkind], hrest⟩

theorem bytes_ne_nil (f : Frame) : f.bytes ≠ [] := List.cons_ne_nil _ _

/-- Bytes are cut into valid frames in one way at most. -/
theorem eq_of_flatMap_bytes (h : ∀ f ∈ frames, f.Valid) (h' : ∀ f ∈ frames', f.Valid)
    (heq : frames.flatMap bytes = frames'.flatMap bytes) : frames = frames' := by
  induction frames generalizing frames' with
  | nil =>
      cases frames' with
      | nil => rfl
      | cons f' frames' => cases heq
  | cons f frames ih =>
      cases frames' with
      | nil => cases heq
      | cons f' frames' =>
          obtain ⟨hf, hframes⟩ := List.forall_mem_cons.1 h
          obtain ⟨hf', hframes'⟩ := List.forall_mem_cons.1 h'
          rw [List.flatMap_cons, List.flatMap_cons] at heq
          obtain ⟨rfl, hrest⟩ := hf.eq_of_append hf' heq
          rw [ih hframes hframes' hrest]

theorem Forms.unique {input : List UInt8} (h : Forms frames input) (h' : Forms frames' input) :
    frames = frames' := by
  have hbytes := h.bytes
  rw [h'.bytes] at hbytes
  exact eq_of_flatMap_bytes h.valid h'.valid (List.append_cancel_left hbytes).symm

end Frame

open WasmMeter.Frame

variable {input : List UInt8} {m : Module}

/-- What is read as a module is a row of frames. -/
theorem Frame.exists_forms (h : Module.ofBytes input = .ok m) :
    ∃ frames, Forms frames input ∧ List.Forall₂ IsReadAs frames m.sections := by
  obtain ⟨hbytes, hsections⟩ := Module.ofBytes_eq_ok_iff.1 h
  obtain ⟨frames, hvalid, hread⟩ := exists_frames hsections
  refine ⟨frames, ⟨?_, hvalid, ?_⟩, hread⟩
  · rw [hbytes, flatMap_source hread]
  · rw [← filterMap_rank? hread]
    exact Module.ordered_of_ofBytes h

theorem Frame.Forms.exists_ofBytes {frames : List Frame} (h : Forms frames input) :
    ∃ m, Module.ofBytes input = .ok m := by
  obtain ⟨sections, hsections, hread⟩ := exists_sections h.valid none 8 h.ordered
  refine ⟨⟨sections⟩, Module.ofBytes_eq_ok_iff.2 ⟨?_, hsections⟩⟩
  rw [h.bytes, flatMap_source hread]

/-- Bytes are read as a module exactly if they are the header and a row of valid frames whose kinds
are in order. There is one such row at most, and the sections are what its frames are read as, each
by itself. A kind other than custom stands at no position but the one at which it is looked up. -/
theorem Module.forms_of_ofBytes (input : List UInt8) :
    ((∃ m, Module.ofBytes input = .ok m) ↔ ∃ frames, Forms frames input) ∧
      (∀ frames frames', Forms frames input → Forms frames' input → frames = frames') ∧
      ∀ m, Module.ofBytes input = .ok m →
        (∀ frames, Forms frames input → List.Forall₂ IsReadAs frames m.sections) ∧
          ∀ kind, kind ≠ .custom → ∀ i, m.position? kind = some i ↔ m.kinds[i]? = some kind := by
  refine ⟨⟨?_, ?_⟩, fun _ _ h h' => h.unique h', fun m h => ⟨fun frames hframes => ?_, ?_⟩⟩
  · rintro ⟨m, h⟩
    obtain ⟨frames, hframes, -⟩ := exists_forms h
    exact ⟨frames, hframes⟩
  · rintro ⟨frames, hframes⟩
    exact hframes.exists_ofBytes
  · obtain ⟨frames', hframes', hread⟩ := exists_forms h
    rwa [hframes.unique hframes']
  · intro kind hkind i
    exact (ordered_of_ofBytes h).position?_eq_some_iff hkind

/-- The custom section in front is a frame too, and the bodies are found behind it. -/
theorem Module.forms_of_ofBytes_padded :
    ∃ m frames, Module.ofBytes padded = .ok m ∧ Forms frames padded ∧
      List.Forall₂ IsReadAs frames m.sections ∧ (m.position? .code = some 3 ↔
        m.kinds[3]? = some .code) := by
  obtain ⟨hiff, -, hsections⟩ := forms_of_ofBytes padded
  have hok : (Module.ofBytes padded).isOk = true := by decide +kernel
  cases h : Module.ofBytes padded with
  | error e => rw [h] at hok; cases hok
  | ok m =>
      obtain ⟨frames, hframes⟩ := hiff.1 ⟨m, h⟩
      obtain ⟨hread, hposition⟩ := hsections m h
      exact ⟨m, frames, rfl, hframes, hread frames hframes, hposition .code (by decide) 3⟩

end WasmMeter
