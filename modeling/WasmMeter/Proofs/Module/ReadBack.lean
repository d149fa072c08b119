import WasmMeter.Proofs.Module.RoundTrip
import WasmMeter.Proofs.Section.ReadBack

/-!
Reading back a module. A section that was changed is read back from its contents, and one that was not
from the bytes it was read from, wherever they stand now. A module with its sections in order is
therefore read back with the contents that it has, up to the offsets at which code begins. Conversely,
whatever is read has its sections in order and well-formed contents.
-/
namespace WasmMeter

open Reader

/-! ### Contents without offsets -/

/-- The body as if it had not been read from anywhere. -/
def FunctionBody.clearOffset (body : FunctionBody) : FunctionBody := { body with codeOffset := 0 }

/-- The contents as if they had not been read from anywhere; only function bodies have offsets. -/
def Payload.clearOffsets (payload : Payload) : Payload :=
  payload.modify .code (·.map FunctionBody.clearOffset)

namespace Payload

variable {payload other : Payload}

theorem modify_of_ne {kind : SectionKind} (h : payload.kind ≠ kind)
    (change : kind.Contents → kind.Contents) : payload.modify kind change = payload := dif_neg h

theorem clearOffsets_modify {change : List FunctionBody → List FunctionBody}
    (h : ∀ bodies, (change bodies).map FunctionBody.clearOffset =
      bodies.map FunctionBody.clearOffset) :
    (payload.modify .code change).clearOffsets = payload.clearOffsets := by
  obtain ⟨kind, contents⟩ := payload
  by_cases hk : kind = .code
  · subst hk
    rw [modify_mk, clearOffsets, clearOffsets, modify_mk, modify_mk]
    exact congrArg _ (h contents)
  · have hne : (Payload.mk kind contents).kind ≠ .code := hk
    rw [modify_of_ne hne]

theorem clearOffsets_move (distance : Nat) :
    (payload.move distance).clearOffsets = payload.clearOffsets :=
  clearOffsets_modify fun bodies => by rw [List.map_map]; rfl

theorem map_placeAll (start : Nat) (bodies : List FunctionBody) :
    (FunctionBody.placeAll start bodies).map FunctionBody.clearOffset =
      bodies.map FunctionBody.clearOffset := by
  induction bodies generalizing start with
  | nil => rfl
  | cons body bodies ih =>
      rw [FunctionBody.placeAll, List.map_cons, List.map_cons, ih]
      rfl

/-- Placing a payload sets the offsets of its code and nothing else. -/
theorem clearOffsets_place (first : Nat) :
    (payload.place first).clearOffsets = payload.clearOffsets :=
  clearOffsets_modify fun _ => map_placeAll _ _

@[simp] theorem kind_clearOffsets (payload : Payload) : payload.clearOffsets.kind = payload.kind :=
  kind_modify _ _ _

theorem kind_eq_of_clearOffsets (h : payload.clearOffsets = other.clearOffsets) :
    payload.kind = other.kind := by
  rw [← kind_clearOffsets, h, kind_clearOffsets]

end Payload

/-- Contents are read in the same way at every offset, up to the offsets that they hold. -/
theorem Reader.exhausts_payload_iff {kind : SectionKind} {bytes : List UInt8} {first : Nat}
    {contained : Payload} :
    Exhausts (payload kind) ⟨bytes, first⟩ contained ↔
      ∃ p : Payload, Exhausts (payload kind) ⟨bytes, 0⟩ p ∧ p.move first = contained := by
  have hmove : payload kind ⟨bytes, 0 + first⟩ =
      moveResult first ((Payload.move first <$> payload kind) ⟨bytes, 0⟩) :=
    moves_payload kind ⟨bytes, 0⟩
  simp only [Nat.zero_add, Functor.map, EStateM.map] at hmove
  constructor
  · rintro ⟨d, hread, hempty⟩
    rw [hmove] at hread
    cases hstart : payload kind ⟨bytes, 0⟩ with
    | error error e => rw [hstart] at hread; cases hread
    | ok p e =>
        rw [hstart] at hread
        cases hread
        exact ⟨p, ⟨e, hstart, hempty⟩, rfl⟩
  · rintro ⟨p, ⟨d, hread, hempty⟩, rfl⟩
    rw [hread] at hmove
    exact ⟨d.move first, hmove, hempty⟩

/-! ### Sections -/

/-- What is needed to read the section back from the bytes that it is written as. -/
structure Section.Restorable (s : Section) : Prop where
  changed : s.isChanged = true → s.payload.WellFormed
  unchanged : s.isChanged = false → ∃ start, s.IsReadAt start

/-- The section `s'` is what `s` is read back as where it begins at `start`. -/
structure Section.IsReadBack (start : Nat) (s s' : Section) : Prop where
  frame : s'.IsReadAt start
  source : s'.source = s.toBytes
  contents : s'.payload.clearOffsets = s.payload.clearOffsets
  placed : s.isChanged = true →
    s'.payload = s.payload.place (start + (s.canonical.length - s.payload.toBytes.length))

namespace Section

variable {s s' : Section} {start : Nat}

/-- A changed section is written canonically, which reads back if its contents are well formed. -/
theorem isReadBack_of_changed (hchanged : s.isChanged = true) (h : s.payload.WellFormed)
    (start : Nat) : ∃ s', s.IsReadBack start s' := by
  let size := Bytes.ofLength s.payload.toBytes.length
  let first := start + 1 + size.length
  have hfirst : first = start + (s.canonical.length - s.payload.toBytes.length) := by
    rw [canonical, List.length_cons, Bytes.length_counted]
    change start + 1 + size.length = start + (size.length + _ + 1 - _)
    omega
  have hkind : (s.payload.place first).kind = s.kind := Payload.kind_modify _ _ _
  refine ⟨⟨s.payload.place first,
    .read first (first + s.payload.toBytes.length) s.canonical false⟩, ?_, ?_, ?_, ?_⟩
  · refine ⟨size, s.payload.toBytes, h.length, reads_uint32 _, ?_, ?_⟩
    · rw [kind, hkind]
      exact exhausts_payload h first
    · rw [kind, hkind]
      rfl
  · rw [toBytes, if_pos hchanged]
    rfl
  · exact Payload.clearOffsets_place first
  · intro _
    rw [← hfirst]

/-- An unchanged section is written as it was read, and so reads back at any place. -/
theorem isReadBack_of_isReadAt {before : Nat} (h : s.IsReadAt before) (start : Nat) :
    ∃ s', s.IsReadBack start s' := by
  obtain ⟨size, contents, hlength, hsize, hpayload, horigin⟩ := h
  obtain ⟨p, hp, hmoved⟩ := exhausts_payload_iff.1 hpayload
  let first := start + 1 + size.length
  have hclear : (p.move first).clearOffsets = s.payload.clearOffsets := by
    rw [← hmoved, Payload.clearOffsets_move, Payload.clearOffsets_move]
  have hkind : (p.move first).kind = s.kind := Payload.kind_eq_of_clearOffsets hclear
  have hsource : s.source = s.kind.toByte :: (size ++ contents) := by rw [source, horigin]
  have hunchanged : s.isChanged = false := by rw [isChanged, horigin]
  refine ⟨⟨p.move first, .read first (first + contents.length) s.source false⟩, ?_, ?_, hclear, ?_⟩
  · refine ⟨size, contents, hlength, hsize, ?_, ?_⟩
    · rw [kind, hkind]
      exact exhausts_payload_iff.2 ⟨p, hp, rfl⟩
    · rw [kind, hkind, hsource]
  · rw [toBytes, hunchanged]
    rfl
  · intro hchanged
    rw [hunchanged] at hchanged
    cases hchanged

/-- In both cases the section can be read back. -/
theorem Restorable.exists_isReadBack (h : s.Restorable) (start : Nat) :
    ∃ s', s.IsReadBack start s' := by
  cases hc : s.isChanged with
  | true => exact isReadBack_of_changed hc (h.changed hc) start
  | false =>
      obtain ⟨before, hread⟩ := h.unchanged hc
      exact isReadBack_of_isReadAt hread start

theorem IsReadBack.kind_eq (h : IsReadBack start s s') : s'.kind = s.kind :=
  Payload.kind_eq_of_clearOffsets h.contents

end Section

/-! ### Sections in order -/

theorem SectionKind.exists_rank? (kind : SectionKind) (h : kind ≠ .custom) :
    ∃ rank, kind.rank? = some rank := by
  cases kind with
  | custom => exact absurd rfl h
  | _ => exact ⟨_, rfl⟩

/-- The ranks of the sections that have one, one after another. -/
def Section.ranks (sections : List Section) : List Nat := sections.filterMap (·.kind.rank?)

namespace Module

/-- The sections other than custom ones are in the order of their ranks. -/
def Ordered (m : Module) : Prop := (Section.ranks m.sections).Pairwise (· < ·)

/-- A kind may follow if its rank, should it have one, is between the last rank and those to come. -/
theorem exists_nextRank?_iff {rank : Option Nat} {kind : SectionKind} {ranks : List Nat} :
    (∃ next, nextRank? rank kind = some next ∧ (next.toList ++ ranks).Pairwise (· < ·)) ↔
      (rank.toList ++ (kind.rank?.toList ++ ranks)).Pairwise (· < ·) := by
  unfold nextRank?
  cases kind.rank? with
  | none => simp
  | some r =>
      cases rank with
      | none => simp
      | some last =>
          by_cases hlt : last < r
          · simp only [hlt, if_true, Option.some.injEq, exists_eq_left', Option.toList_some,
              List.singleton_append, List.pairwise_cons, List.mem_cons, forall_eq_or_imp]
            constructor
            · rintro ⟨hr, hranks⟩
              exact ⟨⟨trivial, fun x hx => Nat.lt_trans hlt (hr x hx)⟩, hr, hranks⟩
            · rintro ⟨-, hranks⟩
              exact hranks
          · simp [hlt]

theorem ranks_cons (s : Section) (rest : List Section) :
    Section.ranks (s :: rest) = s.kind.rank?.toList ++ Section.ranks rest := by
  unfold Section.ranks
  rw [List.filterMap_cons]
  cases s.kind.rank? <;> rfl

/-- Sections that are accepted one after another have ascending ranks. -/
theorem Frames.pairwise_ranks {rank : Option Nat} {start : Nat} {sections : List Section}
    (h : Frames rank start sections) :
    (rank.toList ++ Section.ranks sections).Pairwise (· < ·) := by
  induction h with
  | @nil rank _ => cases rank <;> simp [Section.ranks]
  | cons follows frame frames ih =>
      rw [ranks_cons]
      exact exists_nextRank?_iff.1 ⟨_, follows, ih⟩

/-- Where the sections are in order, a kind that has a rank stands at one position only. -/
theorem Ordered.position?_eq_some_iff {m : Module} (h : m.Ordered) {kind : SectionKind}
    (hkind : kind ≠ .custom) {i : Nat} :
    m.position? kind = some i ↔ m.kinds[i]? = some kind := by
  obtain ⟨rank, hrank⟩ := kind.exists_rank? hkind
  have hranks : m.kinds.Pairwise fun before behind =>
      ∀ r, before.rank? = some r → ∀ r', behind.rank? = some r' → r < r' := by
    rw [kinds, List.pairwise_map]
    exact List.pairwise_filterMap.1 h
  rw [Module.position?_eq_some_iff]
  refine ⟨fun hi => hi.1, fun hi => ⟨hi, fun j hj => ?_⟩⟩
  obtain ⟨hi, hget⟩ := List.getElem?_eq_some_iff.1 hi
  obtain ⟨hj, hget'⟩ := List.getElem?_eq_some_iff.1 hj
  refine Nat.not_lt.1 fun hlt => ?_
  have hless := List.pairwise_iff_getElem.1 hranks i j hi hj hlt
  rw [hget, hget'] at hless
  exact Nat.lt_irrefl rank (hless rank hrank rank hrank)

/-- Where the sections are in order, the contents of a kind that has a rank are those of every section
of the kind. -/
theorem Ordered.contents?_eq {m : Module} (h : m.Ordered) {s : Section} (hs : s ∈ m.sections)
    (hkind : s.kind ≠ .custom) : m.contents? s.kind = some s.payload.contents := by
  obtain ⟨i, hi⟩ := List.mem_iff_getElem?.1 hs
  have hk : m.kinds[i]? = some s.kind := by rw [kinds, List.getElem?_map, hi, Option.map_some]
  exact contents?_eq_some_iff.2 ⟨i, s, (h.position?_eq_some_iff hkind).2 hk, hi, rfl⟩

/-- The sections are what others are read back as that are written one behind another from `start`. -/
inductive ReadBack : Nat → List Section → List Section → Prop where
  | nil {start : Nat} : ReadBack start [] []
  | cons {start : Nat} {s s' : Section} {rest rest' : List Section}
      (head : s.IsReadBack start s')
      (tail : ReadBack (start + s.toBytes.length) rest rest') :
      ReadBack start (s :: rest) (s' :: rest')

namespace ReadBack

variable {start : Nat} {sections sections' : List Section}

/-- The sources of the sections read are what was written, piece by piece. -/
theorem flatMap_source (h : ReadBack start sections sections') :
    sections'.flatMap Section.source = sections.flatMap Section.toBytes := by
  induction h with
  | nil => rfl
  | cons head tail ih => rw [List.flatMap_cons, List.flatMap_cons, head.source, ih]

theorem map_clearOffsets (h : ReadBack start sections sections') :
    sections'.map (·.payload.clearOffsets) = sections.map (·.payload.clearOffsets) := by
  induction h with
  | nil => rfl
  | cons head tail ih => rw [List.map_cons, List.map_cons, head.contents, ih]

theorem map_kind (h : ReadBack start sections sections') :
    sections'.map Section.kind = sections.map Section.kind := by
  induction h with
  | nil => rfl
  | cons head tail ih => rw [List.map_cons, List.map_cons, head.kind_eq, ih]

/-- Sections that read back one by one are accepted as a module if their ranks ascend. -/
theorem frames {rank : Option Nat} (h : ReadBack start sections sections')
    (ho : (rank.toList ++ Section.ranks sections).Pairwise (· < ·)) :
    Frames rank start sections' := by
  induction h generalizing rank with
  | nil => exact .nil
  | cons head tail ih =>
      rw [ranks_cons, ← head.kind_eq] at ho
      obtain ⟨next, follows, hrest⟩ := exists_nextRank?_iff.2 ho
      refine .cons follows head.frame ?_
      rw [head.source]
      exact ih hrest

end ReadBack

/-- A list of sections that can each be read back is read back as a whole. -/
theorem exists_readBack {sections : List Section} (h : ∀ s ∈ sections, s.Restorable)
    (start : Nat) : ∃ sections', ReadBack start sections sections' := by
  induction sections generalizing start with
  | nil => exact ⟨[], .nil⟩
  | cons s rest ih =>
      obtain ⟨hs, hrest⟩ := List.forall_mem_cons.1 h
      obtain ⟨s', head⟩ := hs.exists_isReadBack start
      obtain ⟨rest', tail⟩ := ih hrest (start + s.toBytes.length)
      exact ⟨s' :: rest', .cons head tail⟩

/-- A module whose sections are in order and can be restored is read back. -/
theorem exists_ofBytes_toBytes {m : Module} (ho : m.Ordered)
    (h : ∀ s ∈ m.sections, s.Restorable) :
    ∃ m', Module.ofBytes m.toBytes = .ok m' ∧ ReadBack 8 m.sections m'.sections := by
  obtain ⟨sections', hback⟩ := exists_readBack h 8
  refine ⟨⟨sections'⟩, ofBytes_eq_ok_iff.2 ⟨?_, hback.frames ho⟩, hback⟩
  rw [toBytes, hback.flatMap_source]

/-- What was read has its sections in order. -/
theorem ordered_of_ofBytes {input : List UInt8} {m : Module} (h : Module.ofBytes input = .ok m) :
    m.Ordered :=
  (ofBytes_eq_ok_iff.1 h).2.pairwise_ranks

/-- What was read is well-formed. -/
theorem wellFormed_of_isReadAt {s : Section} {start : Nat} (h : s.IsReadAt start) :
    s.payload.WellFormed := by
  obtain ⟨size, contents, hlength, -, hpayload, -⟩ := h
  exact (wellFormed_of_exhausts s.kind hlength hpayload).1

/-- The contents of a section that was read are short enough to be written with their length. -/
theorem length_contentsBytes_of_ofBytes {input : List UInt8} {m : Module}
    (h : Module.ofBytes input = .ok m) {kind : SectionKind} {contents : kind.Contents}
    (hc : m.contents? kind = some contents) : (kind.contentsBytes contents).length < 2 ^ 32 := by
  obtain ⟨position, s, -, hs, hpayload⟩ := contents?_eq_some_iff.1 hc
  obtain ⟨before, after, hsplit⟩ := List.append_of_mem (List.mem_of_getElem? hs)
  have hlength := (wellFormed_of_isReadAt (isReadAt_of_ofBytes h hsplit).1).length
  rwa [hpayload] at hlength

/-- An import takes two bytes at least. -/
theorem length_importEntries_of_ofBytes {input : List UInt8} {m : Module}
    (h : Module.ofBytes input = .ok m) : m.importEntries.length * 2 < 2 ^ 32 := by
  cases hc : m.contents? .imports with
  | none => rw [importEntries, hc]; decide
  | some entries =>
      rw [importEntries, hc, Option.getD_some]
      exact Nat.lt_trans
        (Bytes.mul_length_lt_length_vector fun entry _ => entry.two_le_length_toBytes)
        (length_contentsBytes_of_ofBytes h hc)

end Module

/-- Contents of sections that are written one behind another, the first of which begins at `start`,
with the offsets that they have there. -/
def Payload.placeAll (start : Nat) : List Payload → List Payload
  | [] => []
  | payload :: rest =>
      let written := (Section.build payload).toBytes.length
      payload.place (start + (written - payload.toBytes.length)) :: placeAll (start + written) rest

namespace Module

theorem ReadBack.map_payload {start : Nat} {payloads : List Payload} {sections : List Section}
    (h : ReadBack start (payloads.map .build) sections) :
    sections.map (·.payload) = Payload.placeAll start payloads := by
  induction payloads generalizing start sections with
  | nil =>
      cases h
      rfl
  | cons payload payloads ih =>
      cases h with
      | cons head tail =>
          rw [List.map_cons, head.placed rfl, ih tail]
          rfl

/-- Every list of well-formed contents, of which the ranks ascend, is read back from the module that
it is written as: the same kinds and contents in the same order, with the code of every body at the
offset at which it stands. Conversely, all contents that are read are well-formed. -/
theorem wellFormed_readBack :
    (∀ payloads : List Payload, (∀ payload ∈ payloads, payload.WellFormed) →
      (payloads.filterMap (·.kind.rank?)).Pairwise (· < ·) →
      ∃ m, Module.ofBytes (toBytes ⟨payloads.map .build⟩) = .ok m ∧
        m.sections.map (·.payload.clearOffsets) = payloads.map Payload.clearOffsets ∧
        m.sections.map (·.payload) = Payload.placeAll 8 payloads) ∧
    ∀ input m, Module.ofBytes input = .ok m → ∀ s ∈ m.sections, s.payload.WellFormed := by
  constructor
  · intro payloads hpayloads hranks
    have ho : Ordered ⟨payloads.map .build⟩ := by
      rw [Ordered, Section.ranks, List.filterMap_map]
      exact hranks
    have hrestorable : ∀ s ∈ payloads.map Section.build, s.Restorable := by
      intro s hs
      obtain ⟨payload, hp, rfl⟩ := List.mem_map.1 hs
      exact ⟨fun _ => hpayloads payload hp, fun h => by cases h⟩
    obtain ⟨m, hread, hback⟩ := exists_ofBytes_toBytes ho hrestorable
    refine ⟨m, hread, ?_, hback.map_payload⟩
    rw [hback.map_clearOffsets, List.map_map]
    rfl
  · intro input m h s hs
    obtain ⟨before, after, hsplit⟩ := List.append_of_mem hs
    exact wellFormed_of_isReadAt (isReadAt_of_ofBytes h hsplit).1

/-- Contents of every kind, with custom ones between them. -/
def everyKind : List Payload := [
  ⟨.custom, ⟨"first", [0x2a]⟩⟩,
  ⟨.types, [.new [.i32, .i64] [.f64], .new [] []]⟩,
  ⟨.imports, [⟨"env", "log", .function 1⟩, ⟨"env", "table", .table ⟨.funcref, ⟨1, 0, some 300⟩⟩⟩,
    ⟨"env", "memory", .memory ⟨5, 1, some 0x100000000⟩⟩, ⟨"env", "g", .global ⟨.i32, true⟩⟩]⟩,
  ⟨.functions, [1, 1]⟩,
  ⟨.tables, [⟨.externref, ⟨0, 3, none⟩⟩]⟩,
  ⟨.memories, [⟨3, 1, some 2⟩]⟩,
  ⟨.globals, [⟨⟨.i32, false⟩, ⟨[0x41, 0x85, 0x00, 0x0b]⟩⟩]⟩,
  ⟨.exports, [⟨"run", .function, 2⟩]⟩,
  ⟨.start, 1⟩,
  ⟨.elements, [⟨0, 0, some ⟨[0x41, 0x00, 0x0b]⟩, none, .indices [1, 2]⟩,
    ⟨6, 1, some ⟨[0x41, 0x01, 0x0b]⟩, some 0x70, .expressions [⟨[0xd2, 0x01, 0x0b]⟩]⟩,
    ⟨3, 0, none, some 0, .indices []⟩]⟩,
  ⟨.dataCount, 2⟩,
  ⟨.custom, ⟨"between", []⟩⟩,
  ⟨.code, [⟨[(2, .i64)], [0x01, 0x0b], 0⟩, ⟨[], [0x0b], 7⟩]⟩,
  ⟨.data, [⟨1, 0, none, [1, 2, 3]⟩, ⟨2, 1, some ⟨[0x41, 0x00, 0x0b]⟩, []⟩]⟩]

theorem wellFormed_readBack_everyKind :
    ((∀ payload ∈ everyKind, payload.WellFormed) ∧
      (everyKind.filterMap (·.kind.rank?)).Pairwise (· < ·) ∧
      ∃ m, Module.ofBytes (toBytes ⟨everyKind.map .build⟩) = .ok m ∧
        m.sections.map (·.payload.clearOffsets) = everyKind.map Payload.clearOffsets ∧
        m.sections.map (·.payload) = Payload.placeAll 8 everyKind) ∧
    ∃ m, Module.ofBytes padded = .ok m ∧ ∀ s ∈ m.sections, s.payload.WellFormed := by
  have hpayloads : ∀ payload ∈ everyKind, payload.WellFormed := by decide +kernel
  have hranks : (everyKind.filterMap (·.kind.rank?)).Pairwise (· < ·) := by decide +kernel
  refine ⟨⟨hpayloads, hranks, wellFormed_readBack.1 everyKind hpayloads hranks⟩, ?_⟩
  have hok : (Module.ofBytes padded).isOk = true := by decide +kernel
  cases h : Module.ofBytes padded with
  | error e => rw [h] at hok; cases hok
  | ok m => exact ⟨m, rfl, wellFormed_readBack.2 padded m h⟩

end Module

end WasmMeter
