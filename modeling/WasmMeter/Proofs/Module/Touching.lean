import WasmMeter.Proofs.Module.Intact
import WasmMeter.Proofs.Module.WrittenAlike

/-!
Sections that count as changed although nothing in them was. They are written anew from the contents
that they were read with, so whatever was longer than it had to be becomes as short as it can be, and
nothing else happens; doing it once more makes no difference.
-/
namespace WasmMeter

open Reader

namespace Section

/-- The section with the contents that it has, counted as changed. -/
def touch (s : Section) : Section := s.setPayload s.payload

variable {s s' : Section}

@[simp] theorem payload_touch (s : Section) : s.touch.payload = s.payload := rfl

@[simp] theorem isChanged_touch (s : Section) : s.touch.isChanged = true :=
  isChanged_setPayload s s.payload

/-- Touching a section twice is touching it once. -/
@[simp] theorem touch_touch (s : Section) : s.touch.touch = s.touch :=
  setPayload_setPayload s s.payload s.payload

/-- A touched section is written canonically. -/
theorem toBytes_touch (s : Section) : s.touch.toBytes = s.canonical := by
  rw [toBytes, if_pos s.isChanged_touch]
  rfl

theorem WrittenAlike.touch (h : s.WrittenAlike s') : s.touch.WrittenAlike s'.touch :=
  writtenAlike_setPayload s s' h.contents

/-- No frame is shorter than the section that is written from its contents: neither the length nor the
contents are written in fewer bytes. -/
theorem IsReadAt.length_canonical_le {start : Nat} (h : s.IsReadAt start) :
    s.canonical.length ≤ s.source.length := by
  obtain ⟨size, contents, hlength, hsize, hsource, -, -, hpayload⟩ := h.bounds
  have hcontents := (wellFormed_of_exhausts s.kind hlength hpayload).2
  have hprefix : (Bytes.ofLength s.payload.toBytes.length).length ≤ size.length := by
    obtain ⟨n, hn, hle⟩ := yields_uint32 _ _ _ (hsize [] 0)
    rw [Cursor.remaining, Cursor.remaining, List.append_nil, List.length_nil, Nat.zero_add] at hn
    rw [hn]
    refine Nat.le_trans (Bytes.length_ofLength_le ?_) hle
    rwa [UInt32.toNat_ofNat_of_lt' hlength]
  rw [canonical, hsource, List.length_cons, List.length_cons, Bytes.length_counted,
    List.length_append]
  omega

end Section

namespace Module

/-- The module with the chosen sections counted as changed. -/
def touch (m : Module) (chosen : Nat → Bool) : Module :=
  ⟨m.sections.mapIdx fun i s => if chosen i then s.touch else s⟩

variable {m m' : Module} {input : List UInt8} {chosen : Nat → Bool}

theorem getElem?_sections_touch (m : Module) (chosen : Nat → Bool) (i : Nat) :
    (m.touch chosen).sections[i]? =
      m.sections[i]?.map fun s => if chosen i then s.touch else s :=
  List.getElem?_mapIdx

/-- Access for a change that is not made marks the section that counts. -/
theorem modify_id_eq_touch (m : Module) (kind : SectionKind) :
    m.modify kind id = m.touch fun i => m.position? kind = some i := by
  refine ext_getElem? fun i => ?_
  rw [getElem?_sections_modify, getElem?_sections_touch]
  by_cases hi : m.position? kind = some i
  · simp only [hi, decide_true, if_true]
    congr 1
    funext s
    rw [Section.touch]
    congr 1
    obtain ⟨other, contents⟩ := s.payload
    by_cases hk : other = kind
    · subst hk
      exact Payload.modify_mk other id contents
    · exact Payload.modify_of_ne hk id
  · simp [hi]

/-- No contents change by being touched. -/
theorem map_payload_touch (m : Module) (chosen : Nat → Bool) :
    (m.touch chosen).sections.map (·.payload) = m.sections.map (·.payload) := by
  refine List.ext_getElem? fun i => ?_
  rw [List.getElem?_map, List.getElem?_map, getElem?_sections_touch, Option.map_map]
  congr 1
  funext s
  simp only [Function.comp_apply]
  split <;> rfl

theorem touch_touch (m : Module) (chosen : Nat → Bool) :
    (m.touch chosen).touch chosen = m.touch chosen := by
  refine ext_getElem? fun i => ?_
  rw [getElem?_sections_touch, getElem?_sections_touch, Option.map_map]
  congr 1
  funext s
  simp only [Function.comp_apply]
  split
  · exact Section.touch_touch s
  · rfl

theorem WrittenAlike.touch (h : m.WrittenAlike m') (chosen : Nat → Bool) :
    (m.touch chosen).WrittenAlike (m'.touch chosen) :=
  forall₂_mapIdx h fun i s s' hs => by
    split
    · exact hs.touch
    · exact hs

/-- Frame by frame, what was read is not written in more bytes. -/
theorem length_flatMap_touch_le {sections : List Section}
    (h : ∀ s ∈ sections, ∃ start, s.IsReadAt start) (chosen : Nat → Bool) :
    ((touch ⟨sections⟩ chosen).sections.flatMap Section.toBytes).length ≤
      (sections.flatMap Section.source).length := by
  induction sections generalizing chosen with
  | nil => exact Nat.le_refl _
  | cons s rest ih =>
      obtain ⟨⟨start, hs⟩, hrest⟩ := List.forall_mem_cons.1 h
      have hfirst : (if chosen 0 then s.touch else s).toBytes.length ≤ s.source.length := by
        split
        · rw [Section.toBytes_touch]
          exact hs.length_canonical_le
        · obtain ⟨_, _, -, -, -, hunchanged, -⟩ := hs.bounds
          rw [Section.toBytes, hunchanged, if_neg Bool.false_ne_true]
      rw [touch, List.mapIdx_cons, List.flatMap_cons, List.flatMap_cons, List.length_append,
        List.length_append]
      exact Nat.add_le_add hfirst (ih hrest fun i => chosen (i + 1))

/-- The sections keep their kinds and their order. -/
theorem kinds_touch (m : Module) (chosen : Nat → Bool) : (m.touch chosen).kinds = m.kinds := by
  have hpayloads := congrArg (List.map Payload.kind) (map_payload_touch m chosen)
  rwa [List.map_map, List.map_map] at hpayloads

/-- A touched module is intact: its contents are still well formed. -/
theorem Intact.touch (h : m.Intact) (chosen : Nat → Bool) : (m.touch chosen).Intact := by
  refine ⟨(ordered_congr (kinds_touch m chosen)).2 h.ordered, fun s hs => ?_⟩
  obtain ⟨i, hi⟩ := List.mem_iff_getElem?.1 hs
  rw [getElem?_sections_touch] at hi
  obtain ⟨old, hold, rfl⟩ := Option.map_eq_some_iff.1 hi
  have hintact := h.sections old (List.mem_of_getElem? hold)
  split
  · refine ⟨hintact.entries, fun hunchanged => ?_⟩
    rw [Section.isChanged_touch] at hunchanged
    cases hunchanged
  · exact hintact

/-- Every section of a module just read was read at some place. -/
theorem exists_isReadAt_of_ofBytes (h : Module.ofBytes input = .ok m) {s : Section}
    (hs : s ∈ m.sections) : ∃ start, s.IsReadAt start :=
  ((intact_of_ofBytes h).sections s hs).unchanged (isChanged_of_ofBytes h hs)

/-- What was read is short enough to be written anew. -/
theorem fits_touch (h : Module.ofBytes input = .ok m) (chosen : Nat → Bool) :
    (m.touch chosen).Fits := by
  intro s hs _
  have hmem : s.payload ∈ m.sections.map (·.payload) := by
    rw [← map_payload_touch m chosen]
    exact List.mem_map_of_mem hs
  obtain ⟨old, hold, hpayload⟩ := List.mem_map.1 hmem
  obtain ⟨start, hread⟩ := exists_isReadAt_of_ofBytes h hold
  rw [← hpayload]
  exact (wellFormed_of_isReadAt hread).length

/-- Writing sections anew that were not changed is harmless, never longer, and done once is enough. For
any choice of sections of a module that was read, the bytes that the module is then written as are read
again, as sections of the same kinds with the same contents up to the offsets of code; there are no
more bytes than there were, the sections that were not chosen have the bytes that they had, and choosing
the same sections once more gives the same bytes. -/
theorem readBack_touch (h : Module.ofBytes input = .ok m) (chosen : Nat → Bool) :
    ∃ m', Module.ofBytes (m.touch chosen).toBytes = .ok m' ∧ m'.kinds = m.kinds ∧
      m'.sections.map (·.payload.clearOffsets) = m.sections.map (·.payload.clearOffsets) ∧
      (m.touch chosen).toBytes.length ≤ input.length ∧
      (∀ i s, chosen i = false → m.sections[i]? = some s →
        ∃ s', m'.sections[i]? = some s' ∧ s'.source = s.source) ∧
      (m'.touch chosen).toBytes = (m.touch chosen).toBytes := by
  obtain ⟨m', hread, hback⟩ :=
    ((intact_of_ofBytes h).touch chosen).exists_ofBytes_toBytes (fits_touch h chosen)
  have halike := hback.writtenAlike
  have hcontents : m'.sections.map (·.payload.clearOffsets) =
      m.sections.map (·.payload.clearOffsets) := by
    have hpayloads := congrArg (List.map Payload.clearOffsets) (map_payload_touch m chosen)
    rw [List.map_map, List.map_map] at hpayloads
    exact hback.map_clearOffsets.trans hpayloads
  refine ⟨m', hread, halike.kinds_eq.trans (kinds_touch m chosen), hcontents, ?_,
    fun i s hi hs => ?_, ?_⟩
  · rw [(ofBytes_eq_ok_iff.1 h).1, toBytes, List.length_append, List.length_append]
    exact Nat.add_le_add_left
      (length_flatMap_touch_le (fun s => exists_isReadAt_of_ofBytes h) chosen) _
  · have htouched : (m.touch chosen).sections[i]? = some s := by
      rw [getElem?_sections_touch, hs, Option.map_some, hi, if_neg Bool.false_ne_true]
    obtain ⟨hlt, hget⟩ := List.getElem?_eq_some_iff.1 htouched
    have hlt' : i < m'.sections.length := by rwa [← halike.length_eq]
    have hsame : s.WrittenAlike m'.sections[i] := hget ▸ halike.get hlt hlt'
    refine ⟨m'.sections[i], List.getElem?_eq_getElem hlt', ?_⟩
    rw [← toBytes_section_of_ofBytes hread (List.getElem_mem hlt'),
      ← toBytes_section_of_ofBytes h (List.mem_of_getElem? hs), hsame.bytes]
  · rw [(halike.touch chosen).toBytes_eq, touch_touch]

/-- The custom section and the code are chosen, the two that are longer than they have to be. -/
theorem readBack_touch_padded :
    ∃ m, Module.ofBytes padded = .ok m ∧ (m.touch (· % 3 = 0)).toBytes.length = 29 ∧
      ∃ m', Module.ofBytes (m.touch (· % 3 = 0)).toBytes = .ok m' ∧ m'.kinds = m.kinds ∧
        m'.sections.map (·.payload.clearOffsets) = m.sections.map (·.payload.clearOffsets) ∧
        (m.touch (· % 3 = 0)).toBytes.length ≤ padded.length ∧
        (∀ i s, decide (i % 3 = 0) = false → m.sections[i]? = some s →
          ∃ s', m'.sections[i]? = some s' ∧ s'.source = s.source) ∧
        (m'.touch (· % 3 = 0)).toBytes = (m.touch (· % 3 = 0)).toBytes := by
  have hok : (do
      let m ← Module.ofBytes padded
      return (m.touch (· % 3 = 0)).toBytes.length : Except Error Nat) = .ok 29 := by
    decide +kernel
  obtain ⟨m, hread, hok⟩ := ok_of_bind_iff.1 hok
  exact ⟨m, hread, ok_of_pure_iff.1 hok, readBack_touch hread _⟩

end Module

end WasmMeter
