import WasmMeter.Gas.Reference
import WasmMeter.Proofs.Module.Contents
import WasmMeter.Proofs.Module.ReadBack
import WasmMeter.Proofs.Traversal

/-!
Modules that can be written and read back at any time. What was read is intact, and a change keeps a
module intact if it makes well-formed contents out of well-formed contents, or puts a section where
its rank allows it. As long as no length leaves 32 bits, an intact module is read back.
-/
namespace WasmMeter

open Reader

/-- The entries are well-formed, and what was not changed is what a frame was read as. -/
structure Section.Intact (s : Section) : Prop where
  entries : s.kind.EntriesWellFormed s.payload.contents
  unchanged : s.isChanged = false → ∃ start, s.IsReadAt start

namespace Module

/-- The sections are in order and intact. -/
structure Intact (m : Module) : Prop where
  ordered : m.Ordered
  sections : ∀ s ∈ m.sections, s.Intact

/-- All lengths are 32-bit integers that are written anew; see `Payload.WellFormed`. -/
def Fits (m : Module) : Prop :=
  ∀ s ∈ m.sections, s.isChanged = true → s.payload.toBytes.length < 2 ^ 32

instance (m : Module) : Decidable m.Fits :=
  inferInstanceAs (Decidable (∀ s ∈ m.sections, _))

variable {m : Module}

theorem intact_of_ofBytes {input : List UInt8} (h : Module.ofBytes input = .ok m) : m.Intact := by
  refine ⟨ordered_of_ofBytes h, fun s hs => ?_⟩
  obtain ⟨before, after, hsplit⟩ := List.append_of_mem hs
  have hread := (isReadAt_of_ofBytes h hsplit).1
  exact ⟨(wellFormed_of_isReadAt hread).entries, fun _ => ⟨_, hread⟩⟩

/-- What is not written anew was short enough to be read. -/
theorem Intact.wellFormed (h : m.Intact) (hfits : m.Fits) :
    ∀ s ∈ m.sections, s.payload.WellFormed := by
  intro s hs
  cases hchanged : s.isChanged with
  | true => exact ⟨(h.sections s hs).entries, hfits s hs hchanged⟩
  | false =>
      obtain ⟨start, hread⟩ := (h.sections s hs).unchanged hchanged
      exact wellFormed_of_isReadAt hread

/-- An intact module is read back. -/
theorem Intact.exists_ofBytes_toBytes (h : m.Intact) (hfits : m.Fits) :
    ∃ m', Module.ofBytes m.toBytes = .ok m' ∧ ReadBack 8 m.sections m'.sections :=
  Module.exists_ofBytes_toBytes h.ordered fun s hs =>
    ⟨fun _ => h.wellFormed hfits s hs, (h.sections s hs).unchanged⟩

/-! ### Changes of contents -/

theorem ordered_congr {other : Module} (h : m.kinds = other.kinds) : m.Ordered ↔ other.Ordered := by
  have hranks : ∀ sections : List Section,
      Section.ranks sections = (sections.map Section.kind).filterMap SectionKind.rank? := by
    intro sections
    rw [List.filterMap_map]
    rfl
  rw [Ordered, Ordered, hranks, hranks]
  exact (congrArg (fun kinds => List.Pairwise _ (List.filterMap _ kinds)) h).to_iff

/-- The entries that are looked up in an intact module are well formed. -/
theorem Intact.entriesWellFormed (h : m.Intact) {kind : SectionKind} {contents : kind.Contents}
    (hc : m.contents? kind = some contents) : kind.EntriesWellFormed contents := by
  obtain ⟨position, ⟨payload, origin⟩, -, hs, rfl⟩ := contents?_eq_some_iff.1 hc
  exact (h.sections _ (List.mem_of_getElem? hs)).entries

/-- A change that keeps the entries well formed keeps the module intact. -/
theorem Intact.modify (h : m.Intact) {kind : SectionKind} {change : kind.Contents → kind.Contents}
    (hchange : ∀ contents, m.contents? kind = some contents → kind.EntriesWellFormed contents →
      kind.EntriesWellFormed (change contents)) : (m.modify kind change).Intact := by
  refine ⟨(ordered_congr (kinds_modify change)).2 h.ordered, fun s hs => ?_⟩
  obtain ⟨i, hi⟩ := List.mem_iff_getElem?.1 hs
  rw [getElem?_sections_modify] at hi
  split at hi
  · next hposition =>
    obtain ⟨⟨⟨other, contents⟩, origin⟩, hold, rfl⟩ := Option.map_eq_some_iff.1 hi
    have hk := (position?_eq_some_iff.1 hposition).1
    rw [kinds, List.getElem?_map, hold] at hk
    obtain rfl : other = kind := Option.some.inj hk
    have hcontents : m.contents? other = some contents :=
      contents?_eq_some_iff.2 ⟨i, _, hposition, hold, rfl⟩
    rw [Payload.modify_mk]
    refine ⟨hchange contents hcontents (h.entriesWellFormed hcontents), fun hunchanged => ?_⟩
    rw [Section.isChanged_setPayload] at hunchanged
    cases hunchanged
  · exact h.sections s (List.mem_of_getElem? hi)

/-- A change that makes well-formed contents out of well-formed contents can be made. -/
theorem Intact.exists_adjust (h : m.Intact) {kind : SectionKind}
    {change : kind.Contents → Except Error kind.Contents}
    (hchange : ∀ contents, kind.EntriesWellFormed contents →
      ∃ changed, change contents = .ok changed ∧ kind.EntriesWellFormed changed) :
    ∃ other, m.adjust kind change = .ok other ∧ other.Intact := by
  unfold Module.adjust
  cases hc : m.contents? kind with
  | none => exact ⟨m, rfl, h⟩
  | some contents =>
      obtain ⟨changed, hchanged, hentries⟩ := hchange contents (h.entriesWellFormed hc)
      refine ⟨_, ok_of_bind_iff.2 ⟨changed, hchanged, rfl⟩, ?_⟩
      split
      · exact h
      · exact h.modify fun _ _ _ => hentries

/-! ### New sections -/

theorem ranks_append (before after : List Section) :
    Section.ranks (before ++ after) = Section.ranks before ++ Section.ranks after :=
  List.filterMap_append

/-- A section may be put where its rank is between those in front of it and those behind it. -/
theorem Intact.insert {position : Nat} {s : Section} (h : m.Intact) (hs : s.Intact)
    (hfront : ∀ rank ∈ Section.ranks (m.sections.take position), ∀ r ∈ s.kind.rank?, rank < r)
    (hbehind : ∀ rank ∈ Section.ranks (m.sections.drop position), ∀ r ∈ s.kind.rank?, r < rank) :
    (m.insert position s).Intact := by
  refine ⟨?_, ?_⟩
  · have ho := h.ordered
    rw [Ordered, ← List.take_append_drop position m.sections, ranks_append] at ho
    obtain ⟨hbefore, hafter, hacross⟩ := List.pairwise_append.1 ho
    rw [Ordered, Module.insert, ranks_append, ranks_cons]
    refine List.pairwise_append.2 ⟨hbefore, List.pairwise_append.2 ⟨?_, hafter, ?_⟩, ?_⟩
    · cases s.kind.rank? <;> simp
    · intro r hr rank hrank
      exact hbehind rank hrank r (Option.mem_toList.1 hr)
    · intro rank hrank r hr
      rcases List.mem_append.1 hr with hr | hr
      · exact hfront rank hrank r (Option.mem_toList.1 hr)
      · exact hacross rank hrank r hr
  · intro other hother
    rcases List.mem_append.1 hother with hother | hother
    · exact h.sections other (List.mem_of_mem_take hother)
    · rcases List.mem_cons.1 hother with rfl | hother
      · exact hs
      · exact h.sections other (List.mem_of_mem_drop hother)

end Module

end WasmMeter
