import Mathlib.Data.List.Basic
import WasmMeter.Module.Index
import WasmMeter.Proofs.Module.Contents

/-!
An index that has just been built agrees with looking through the sections, and it depends on their
kinds alone. So a module with such an index answers like the list of its sections, and it stays one
when contents are changed at the positions that the index gives.
-/
namespace WasmMeter

namespace SectionIndex

variable {kind : SectionKind}

/-- Entering a section overwrites the slot of its kind, and no other. -/
@[simp] theorem slot?_enter (hkind : kind ≠ .custom) (index : SectionIndex) (other : SectionKind)
    (position : Nat) :
    (index.enter other position).slot? kind =
      if kind = other then some position else index.slot? kind := by
  unfold enter
  split
  · next hcustom => rw [if_neg (fun h => hkind (h.trans hcustom))]
  · rfl

/-- Custom sections have no slot: their positions are collected in order. -/
theorem customs_enter (index : SectionIndex) (kind : SectionKind) (position : Nat) :
    (index.enter kind position).customs =
      index.customs ++ if kind = .custom then [position] else [] := by
  by_cases hcustom : kind = .custom <;> simp [enter, hcustom]

/-- The index is built by entering the sections one by one. -/
theorem build_concat (sections : List Section) (s : Section) :
    build (sections ++ [s]) = (build sections).enter s.kind sections.length := by
  simp [build, List.zipIdx_append]

/-- The slot of a kind is the position that counts. -/
theorem slot?_build (hkind : kind ≠ .custom) (sections : List Section) :
    (build sections).slot? kind = Module.position? ⟨sections⟩ kind := by
  induction sections using List.reverseRecOn with
  | nil => rfl
  | append_singleton sections s ih =>
      rw [build_concat, slot?_enter hkind, ih, Module.position?, Module.position?,
        Module.positions_concat]
      by_cases hs : s.kind = kind
      · rw [if_pos hs.symm, if_pos hs, List.getLast?_concat]
      · rw [if_neg (Ne.symm hs), if_neg hs, List.append_nil]

theorem customs_build (sections : List Section) :
    (build sections).customs = Module.positions ⟨sections⟩ .custom := by
  induction sections using List.reverseRecOn with
  | nil => rfl
  | append_singleton sections s ih =>
      rw [build_concat, customs_enter, ih, Module.positions_concat]

/-- Only the kinds of the sections are entered. -/
theorem build_congr {sections others : List Section}
    (h : sections.map Section.kind = others.map Section.kind) : build sections = build others := by
  have hkinds (sections : List Section) :
      build sections = ((sections.map Section.kind).zipIdx).foldl
        (fun index entry => index.enter entry.1 entry.2) empty := by
    rw [List.zipIdx_map, List.foldl_map]
    rfl
  rw [hkinds, hkinds, h]

end SectionIndex

namespace Module

variable {m : Module} {kind : SectionKind}

/-- The module with an index of its sections. -/
def indexed (m : Module) : IndexedModule := .new m.sections

@[simp] theorem toModule_indexed (m : Module) : m.indexed.toModule = m := rfl

/-- The slot of a kind is the position that a search of the sections gives. -/
@[simp] theorem slot?_indexed (hkind : kind ≠ .custom) :
    m.indexed.index.slot? kind = m.position? kind :=
  SectionIndex.slot?_build hkind m.sections

/-- A position in the index is that of a section of its kind, so looking it up gives contents. -/
theorem lookup_indexed (hkind : kind ≠ .custom) :
    m.indexed.lookup kind = (m.contents? kind).elim .absent .found := by
  rw [IndexedModule.lookup, slot?_indexed hkind]
  cases hposition : m.position? kind with
  | none => rw [contents?_eq_none_iff.2 hposition]; rfl
  | some position =>
      obtain ⟨s, hs, -⟩ := exists_of_position? hposition
      obtain ⟨contents, hpayload, hcontents⟩ := payload_eq_of_position? hs hposition
      simp [hs, hpayload, hcontents]

/-- Contents found through the index are those found by searching. -/
@[simp] theorem contents?_indexed (hkind : kind ≠ .custom) :
    m.indexed.contents? kind = m.contents? kind := by
  rw [IndexedModule.contents?, lookup_indexed hkind]
  cases m.contents? kind <;> rfl

/-- A change of contents keeps all kinds in their places, and so the index. -/
@[simp] theorem modify_indexed (hkind : kind ≠ .custom) (change : kind.Contents → kind.Contents) :
    m.indexed.modify kind change = (m.modify kind change).indexed := by
  have hindex : (m.modify kind change).indexed.index = m.indexed.index :=
    SectionIndex.build_congr (kinds_modify change)
  have hindexed : (m.modify kind change).indexed = ⟨m.modify kind change, m.indexed.index⟩ := by
    rw [← hindex]; rfl
  rw [hindexed, IndexedModule.modify, slot?_indexed hkind, modify]
  cases m.position? kind <;> rfl

@[simp] theorem insert_indexed (m : Module) (position : Nat) (s : Section) :
    m.indexed.insert position s = (m.insert position s).indexed := rfl

/-- The sections at the positions of a kind are all that hold contents of it. -/
theorem filterMap_positions (m : Module) (kind : SectionKind) :
    ((m.positions kind).filterMap fun position => do
      (← m.sections[position]?).payload.contents? kind) =
      m.sections.filterMap (·.payload.contents? kind) := by
  rw [positions, List.filterMap_map, List.filterMap_filter]
  calc m.sections.zipIdx.filterMap _
      = m.sections.zipIdx.filterMap ((·.payload.contents? kind) ∘ Prod.fst) := by
        refine List.filterMap_congr fun entry hentry => ?_
        have hs : m.sections[entry.2]? = some entry.1 := List.mem_zipIdx_iff_getElem?.1 hentry
        by_cases hk : entry.1.kind = kind
        · simp [hk, hs]
        · simp [hk, Payload.contents?_eq_none hk]
    _ = m.sections.filterMap (·.payload.contents? kind) := by
        rw [← List.filterMap_map, List.zipIdx_map_fst]

/-- Every custom section is found in the index, in order. -/
@[simp] theorem customs_indexed (m : Module) : m.indexed.customs = m.customs := by
  rw [customs, ← filterMap_positions, IndexedModule.customs]
  exact congrArg (List.filterMap _) (SectionIndex.customs_build m.sections)

@[simp] theorem custom?_indexed (m : Module) (name : String) :
    m.indexed.custom? name = m.custom? name := by
  rw [IndexedModule.custom?, customs_indexed, custom?]

@[simp] theorem export?_indexed (m : Module) (name : String) :
    m.indexed.export? name = m.export? name := by
  simp [IndexedModule.export?, IndexedModule.exportEntries, export?]

/-- The imports counted through the index are those of the module. -/
@[simp] theorem importedCount_indexed (m : Module) (kind : ExternalKind) :
    m.indexed.importedCount kind = m.importedCount kind := by
  simp [IndexedModule.importedCount, IndexedModule.importEntries, importedCount]

@[simp] theorem functionCount_indexed (m : Module) : m.indexed.functionCount = m.functionCount := by
  simp [IndexedModule.functionCount, IndexedModule.declarations, functionCount]

@[simp] theorem functionSpace_indexed (m : Module) : m.indexed.functionSpace = m.functionSpace := by
  simp [IndexedModule.functionSpace, IndexedModule.importEntries, IndexedModule.declarations,
    functionSpace]

@[simp] theorem functionType?_indexed (m : Module) (function : Nat) :
    m.indexed.functionType? function = m.functionType? function := by
  simp [IndexedModule.functionType?, functionType?]

/-- The last section of a kind stands at the position. -/
def IsLast (m : Module) (kind : SectionKind) (position : Nat) : Prop :=
  m.kinds[position]? = some kind ∧ ∀ i, m.kinds[i]? = some kind → i ≤ position

end Module

/-- The index is that of the sections of a module: a slot holds the position of the last section of
its kind, if there is any, and the custom sections are at the other positions, in ascending order. -/
structure SectionIndex.Tracks (index : SectionIndex) (m : Module) : Prop where
  slot : ∀ kind, kind ≠ .custom → ∀ position,
    index.slot? kind = some position ↔ m.IsLast kind position
  filled : ∀ kind, kind ≠ .custom → ((index.slot? kind).isSome = true ↔ kind ∈ m.kinds)
  sorted : index.customs.Pairwise (· < ·)
  customs : ∀ position, position ∈ index.customs ↔ m.kinds[position]? = some .custom

/-- Contents of the kind are looked up and changed in the last section of that kind, and nowhere if
there is none. A lookup never ends behind the list or at another kind, and a change, even one that
keeps the contents, marks that section alone. -/
structure IndexedModule.AccessesLast (m : IndexedModule) (kind : SectionKind) : Prop where
  found : ∀ contents, m.lookup kind = .found contents ↔
    ∃ position s, m.IsLast kind position ∧ m.sections[position]? = some s ∧
      s.payload = ⟨kind, contents⟩
  absent : m.lookup kind = .absent ↔ kind ∉ m.kinds
  inside : m.lookup kind ≠ .outside
  sameKind : m.lookup kind ≠ .otherKind
  changed : ∀ position s contents, m.IsLast kind position → m.sections[position]? = some s →
    s.payload = ⟨kind, contents⟩ → ∀ change : kind.Contents → kind.Contents,
      (m.modify kind change).sections =
        m.sections.set position (s.setPayload ⟨kind, change contents⟩)
  marked : ∀ position, m.IsLast kind position → ∀ change : kind.Contents → kind.Contents,
    (m.modify kind change).sections.map Section.isChanged =
      (m.sections.map Section.isChanged).set position true
  unchanged : kind ∉ m.kinds → ∀ change : kind.Contents → kind.Contents, m.modify kind change = m

namespace Module

variable {m : Module} {kind : SectionKind}

theorem tracks_indexed (m : Module) : m.indexed.index.Tracks m where
  slot kind hkind position := by rw [slot?_indexed hkind, position?_eq_some_iff, IsLast]
  filled kind hkind := by rw [slot?_indexed hkind, isSome_position?_iff]
  sorted := by
    rw [indexed, IndexedModule.new, SectionIndex.customs_build]
    exact pairwise_positions m .custom
  customs position := by
    rw [indexed, IndexedModule.new, SectionIndex.customs_build]
    exact mem_positions

/-- A change by index replaces the contents of one section, the one at the position. -/
theorem sections_modify_of_position? {position : Nat} {s : Section} {contents : kind.Contents}
    (hposition : m.position? kind = some position) (hs : m.sections[position]? = some s)
    (hpayload : s.payload = ⟨kind, contents⟩) (change : kind.Contents → kind.Contents) :
    (m.modify kind change).sections =
      m.sections.set position (s.setPayload ⟨kind, change contents⟩) := by
  rw [modify, hposition]
  dsimp only
  rw [List.modify_eq_set_getElem?, hs]
  simp [hpayload]

/-- That section, and no other, counts as changed afterwards. -/
theorem isChanged_modify_of_position? {position : Nat} (h : m.position? kind = some position)
    (change : kind.Contents → kind.Contents) :
    (m.modify kind change).sections.map Section.isChanged =
      (m.sections.map Section.isChanged).set position true := by
  obtain ⟨s, hs, -⟩ := exists_of_position? h
  obtain ⟨contents, hpayload, -⟩ := payload_eq_of_position? hs h
  rw [sections_modify_of_position? h hs hpayload, List.map_set, Section.isChanged_setPayload]

theorem accessesLast_indexed (hkind : kind ≠ .custom) (m : Module) :
    m.indexed.AccessesLast kind where
  found contents := by
    have hlookup : m.indexed.lookup kind = .found contents ↔ m.contents? kind = some contents := by
      rw [lookup_indexed hkind]
      cases m.contents? kind <;> simp
    rw [hlookup, contents?_eq_some_iff]
    simp only [position?_eq_some_iff]
    rfl
  absent := by
    rw [← position?_eq_none_iff, ← contents?_eq_none_iff, lookup_indexed hkind]
    cases h : m.contents? kind <;> simp [h]
  inside := by
    rw [lookup_indexed hkind]
    cases m.contents? kind <;> simp
  sameKind := by
    rw [lookup_indexed hkind]
    cases m.contents? kind <;> simp
  changed position s contents hlast hs hpayload change := by
    rw [modify_indexed hkind]
    exact sections_modify_of_position? (position?_eq_some_iff.2 hlast) hs hpayload change
  marked position hlast change := by
    rw [modify_indexed hkind]
    exact isChanged_modify_of_position? (position?_eq_some_iff.2 hlast) change
  unchanged habsent change := by
    have hposition : m.position? kind = none := position?_eq_none_iff.2 habsent
    rw [modify_indexed hkind, modify, hposition]

end Module

end WasmMeter
