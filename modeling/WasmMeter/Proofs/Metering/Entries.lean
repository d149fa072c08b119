import WasmMeter.Proofs.Metering.References

/-!
What metering makes of the entries of a section. In an entry that is moved, references to functions
are those to the same functions at their new indices, and everything else is as before. An entry is
the same after it was moved exactly if all its references are in front of the metering import.
-/
namespace WasmMeter

variable {f : UInt32 → UInt32} {point limit : UInt32}

/-! ### Functions that stay what they are -/

/-- An instruction whose function the map fixes is the same instruction, its encoding kept. -/
theorem Instruction.mapFunction_eq_self {instruction : Instruction}
    (h : ∀ function, instruction.function? = some function → f function = function) :
    instruction.mapFunction f = instruction := by
  unfold mapFunction
  split
  · next function hf =>
    obtain ⟨himmediate, -⟩ := opcode_of_function? hf
    rw [h function hf, ← himmediate, withImmediate_self]
  · rfl

namespace Disassembly

variable {d : Disassembly}

theorem mapReferences_eq_self (h : ∀ function ∈ d.references, f function = function) :
    d.mapReferences f = d := by
  have hall : ∀ instruction ∈ d.instructions, instruction.mapFunction f = id instruction :=
    fun instruction hi => Instruction.mapFunction_eq_self fun function hf =>
      h function (List.mem_filterMap.2 ⟨instruction, hi, hf⟩)
  rw [mapReferences, List.map_congr_left hall, List.map_id]

/-- Settling the encodings of a disassembly leaves the functions it names as they were. -/
theorem references_settle (d : Disassembly) : d.settle.references = d.references := by
  rw [references, settle, List.filterMap_map]
  rfl

end Disassembly

/-- Replacing functions changes an expression exactly if one of its references changes. -/
theorem ConstExpr.mapReferences_eq_self_iff {expression other : ConstExpr}
    (h : expression.mapReferences f = .ok other) :
    other = expression ↔
      ForallOk (fun function => f function = function) expression.references := by
  obtain ⟨d, hd, h⟩ := ok_of_bind_iff.1 h
  obtain rfl := ok_of_pure_iff.1 h
  obtain ⟨hread, hbytes⟩ := Disassembly.ofBytesAt_eq_ok_iff.1 hd
  have hreferences : expression.references = .ok d.references := ok_of_bind_iff.2 ⟨d, hd, rfl⟩
  rw [hreferences, forallOk_ok_iff]
  constructor
  · intro heq
    have hother : Disassembly.ofBytes (d.mapReferences f).assemble =
        .ok (d.mapReferences f).settle := (hread.readable.mapReferences f).ofBytesAt_assemble 0
    have hsame : (d.mapReferences f).assemble = expression.bytes := congrArg ConstExpr.bytes heq
    rw [hsame, hd] at hother
    have hmoved := congrArg Disassembly.references (Except.ok.inj hother)
    rw [Disassembly.references_settle, Disassembly.references_mapReferences] at hmoved
    exact List.map_inj_left.1 (hmoved.symm.trans (List.map_id _).symm)
  · intro hfixed
    rw [Disassembly.mapReferences_eq_self hfixed, hbytes]

/-- A list of elements is unchanged by a map exactly when the map fixes every function it names. -/
theorem ElementItems.mapReferences_eq_self_iff {items other : ElementItems}
    (h : items.mapReferences f = .ok other) :
    other = items ↔ ForallOk (fun function => f function = function) items.references := by
  cases items with
  | indices functions =>
      obtain rfl := ok_of_pure_iff.1 h
      have hreferences : (indices functions).references = .ok functions := rfl
      rw [hreferences, forallOk_ok_iff, indices.injEq]
      constructor
      · exact fun hsame => List.map_inj_left.1 (hsame.trans (List.map_id _).symm)
      · exact fun hfixed => (List.map_congr_left hfixed).trans (List.map_id _)
  | expressions slots =>
      obtain ⟨moved, hmoved, h⟩ := ok_of_bind_iff.1 h
      obtain rfl := ok_of_pure_iff.1 h
      rw [references, forallOk_flatten_iff, expressions.injEq]
      exact eq_iff_of_forall₂ (mapM_eq_ok_iff.1 hmoved) fun _ _ =>
        ConstExpr.mapReferences_eq_self_iff

/-- A segment is unchanged exactly when the map fixes the functions of its offset and of its items. -/
theorem ElementSegment.mapReferences_eq_self_iff {segment other : ElementSegment}
    (h : segment.mapReferences f = .ok other) :
    other = segment ↔ ForallOk (fun function => f function = function) segment.references := by
  obtain ⟨items, hitems, h⟩ := ok_of_bind_iff.1 h
  obtain rfl := ok_of_pure_iff.1 h
  obtain ⟨flags, table, offset, elementType, before⟩ := segment
  rw [references, ← ElementItems.mapReferences_eq_self_iff hitems]
  simp only [mk.injEq, true_and]

theorem Global.mapReferences_eq_self_iff {entry other : Global}
    (h : entry.mapReferences f = .ok other) :
    other = entry ↔ ForallOk (fun function => f function = function) entry.references := by
  obtain ⟨init, hinit, h⟩ := ok_of_bind_iff.1 h
  obtain rfl := ok_of_pure_iff.1 h
  obtain ⟨type, before⟩ := entry
  rw [references, ← ConstExpr.mapReferences_eq_self_iff hinit]
  simp only [mk.injEq, true_and]

theorem Export.mapReferences_eq_self_iff (entry : Export) :
    entry.mapReferences f = entry ↔ ∀ function ∈ entry.function?, f function = function := by
  obtain ⟨name, kind, index⟩ := entry
  unfold mapReferences function?
  by_cases hkind : kind = .function <;> simp [hkind]

/-! ### Entries that are moved -/

/-- The export is of the same entry, at its new index if it is a function. -/
structure Export.Moved (point : UInt32) (entry other : Export) : Prop where
  name : other.name = entry.name
  kind : other.kind = entry.kind
  index : other.index =
    if entry.kind = .function then shift entry.index point 1 else entry.index

/-- Every instruction keeps its own bytes unless it refers to a function that moves. -/
def ConstExpr.Moved (point : UInt32) (expression other : ConstExpr) : Prop :=
  ∃ d, Disassembly.ofBytes expression.bytes = .ok d ∧
    other.bytes = d.instructions.flatMap (Instruction.movedBytes point)

inductive ElementItems.Moved (point : UInt32) : ElementItems → ElementItems → Prop where
  | indices {functions : List UInt32} :
      Moved point (.indices functions) (.indices (functions.map (shift · point 1)))
  | expressions {slots others : List ConstExpr}
      (moved : List.Forall₂ (ConstExpr.Moved point) slots others) :
      Moved point (.expressions slots) (.expressions others)

/-- The items are moved. The offset is a number and stays. -/
structure ElementSegment.Moved (point : UInt32) (segment other : ElementSegment) : Prop where
  flags : other.flags = segment.flags
  table : other.table = segment.table
  offset : other.offset = segment.offset
  elementType : other.elementType = segment.elementType
  items : segment.items.Moved point other.items

structure Global.Moved (point : UInt32) (entry other : Global) : Prop where
  type : other.type = entry.type
  init : entry.init.Moved point other.init

theorem Export.moved (point : UInt32) (entry : Export) :
    entry.Moved point (entry.mapReferences (shift · point 1)) := by
  unfold mapReferences
  by_cases hkind : entry.kind = .function
  · rw [if_pos hkind]
    exact ⟨rfl, rfl, (if_pos hkind).symm⟩
  · rw [if_neg hkind]
    exact ⟨rfl, rfl, (if_neg hkind).symm⟩

/-- A constant expression whose functions stay below the limit has moved: each instruction is written
with its index shifted. -/
theorem ConstExpr.moved {expression other : ConstExpr}
    (h : expression.mapReferences (shift · point 1) = .ok other)
    (hlt : ForallOk (shift · point 1 < limit) expression.references) :
    expression.Moved point other := by
  obtain ⟨d, hd, h⟩ := ok_of_bind_iff.1 h
  obtain rfl := ok_of_pure_iff.1 h
  have hreferences : expression.references = .ok d.references := ok_of_bind_iff.2 ⟨d, hd, rfl⟩
  rw [hreferences, forallOk_ok_iff] at hlt
  exact ⟨d, hd, Disassembly.assemble_mapReferences_shift hlt⟩

/-- The elements of a segment have moved, whether they are plain indices or expressions. -/
theorem ElementItems.moved {items other : ElementItems}
    (h : items.mapReferences (shift · point 1) = .ok other)
    (hlt : ForallOk (shift · point 1 < limit) items.references) : items.Moved point other := by
  cases items with
  | indices functions =>
      obtain rfl := ok_of_pure_iff.1 h
      exact .indices
  | expressions slots =>
      obtain ⟨others, hmoved, h⟩ := ok_of_bind_iff.1 h
      obtain rfl := ok_of_pure_iff.1 h
      have hslots := forallOk_flatten_iff.1 hlt
      exact .expressions (((List.forall₂_and_left _ _).2 ⟨hslots, mapM_eq_ok_iff.1 hmoved⟩).imp
        fun _ _ hslot => ConstExpr.moved hslot.2 hslot.1)

/-- A segment has moved when both its offset and its items have. -/
theorem ElementSegment.moved {segment other : ElementSegment}
    (h : segment.mapReferences (shift · point 1) = .ok other)
    (hlt : ForallOk (shift · point 1 < limit) segment.references) : segment.Moved point other := by
  obtain ⟨items, hitems, h⟩ := ok_of_bind_iff.1 h
  obtain rfl := ok_of_pure_iff.1 h
  exact ⟨rfl, rfl, rfl, rfl, ElementItems.moved hitems hlt⟩

theorem Global.moved {entry other : Global}
    (h : entry.mapReferences (shift · point 1) = .ok other)
    (hlt : ForallOk (shift · point 1 < limit) entry.references) : entry.Moved point other := by
  obtain ⟨init, hinit, h⟩ := ok_of_bind_iff.1 h
  obtain rfl := ok_of_pure_iff.1 h
  exact ⟨rfl, ConstExpr.moved hinit hlt⟩

/-! ### Lists of entries -/

/-- Exports stay what they are exactly if those of functions are in front of the metering import. -/
theorem Export.map_mapReferences_eq_self_iff {entries : List Export}
    (hlt : ∀ entry ∈ entries, ∀ function ∈ entry.function?, shift function point 1 < limit) :
    entries.map (Export.mapReferences (shift · point 1)) = entries ↔
      ∀ entry ∈ entries, entry.kind = .function → entry.index < point := by
  have h : List.Forall₂ (fun entry other => entry.mapReferences (shift · point 1) = other) entries
      (entries.map (Export.mapReferences (shift · point 1))) :=
    List.forall₂_map_right_iff.2 (List.forall₂_same.2 fun _ _ => rfl)
  have hself : ∀ entry other : Export, entry.mapReferences (shift · point 1) = other →
      (other = entry ↔ ∀ function ∈ entry.function?, shift function point 1 = function) := by
    rintro entry _ rfl
    exact mapReferences_eq_self_iff entry
  refine (eq_iff_of_forall₂ h hself).trans (forall₂_congr fun entry hentry => ?_)
  have hentry := hlt entry hentry
  unfold function? at hentry ⊢
  by_cases hkind : entry.kind = .function
  · simp only [hkind, if_true, Option.mem_some_iff, forall_eq', true_implies] at hentry ⊢
    exact shift_eq_self_iff hentry
  · simp [hkind]

/-- Entries of which the references are replaced one by one, and are all in range afterwards: each
of them is moved, and they stay what they are exactly if all references are in front of the metering
import. -/
theorem moved_of_mapReferences {α : Type} {references : α → Except Error (List UInt32)}
    {mapReferences : α → Except Error α} {Moved : α → α → Prop} {entries others : List α}
    (h : List.Forall₂ (fun a b => mapReferences a = .ok b) entries others)
    (hmoved : ∀ {a b}, mapReferences a = .ok b →
      ForallOk (shift · point 1 < limit) (references a) → Moved a b)
    (hself : ∀ {a b}, mapReferences a = .ok b →
      (b = a ↔ ForallOk (fun function => shift function point 1 = function) (references a)))
    (hlt : ∀ a ∈ entries, ForallOk (shift · point 1 < limit) (references a)) :
    List.Forall₂ Moved entries others ∧
      (others = entries ↔ ∀ a ∈ entries, ForallOk (· < point) (references a)) := by
  constructor
  · exact ((List.forall₂_and_left _ _).2 ⟨hlt, h⟩).imp fun _ _ hentry => hmoved hentry.2 hentry.1
  · refine (eq_iff_of_forall₂ h fun a b => hself).trans (forall₂_congr fun a ha => ?_)
    exact (hlt a ha).congr fun _ => shift_eq_self_iff

/-! ### Entries of a module -/

/-- Every reference outside the code has a property. -/
structure Module.ForallReferences (P : UInt32 → Prop) (m : Module) : Prop where
  exports : ∀ entry ∈ m.exportEntries, ∀ function ∈ entry.function?, P function
  start : ∀ function ∈ m.contents? .start, P function
  elements : ∀ segment ∈ m.elementSegments, ForallOk P segment.references
  globals : ∀ entry ∈ m.globalEntries, ForallOk P entry.references

theorem ElementSegment.forallOk_references {P : UInt32 → Prop} {segment : ElementSegment}
    {number : Nat} (h : ForallOk (P ·.2) (segment.sites number)) :
    ForallOk P segment.references := by
  obtain ⟨found, hfound, hP⟩ := h
  exact ⟨_, ElementItems.references_of_sites hfound, List.forall_mem_map.2 hP⟩

theorem Global.forallOk_references {P : UInt32 → Prop} {entry : Global} {number : Nat}
    (h : ForallOk (P ·.2) (entry.sites number)) : ForallOk P entry.references := by
  obtain ⟨found, hfound, hP⟩ := h
  exact ⟨_, ConstExpr.references_of_sites hfound, List.forall_mem_map.2 hP⟩

/-- What holds of every reference outside the code holds of the references of each entry. -/
theorem Module.forallReferences_of_sites {P : UInt32 → Prop} {m : Module}
    (h : ForallOk (P ·.2) m.sitesOutsideCode) : m.ForallReferences P := by
  obtain ⟨found, hfound, hP⟩ := h
  obtain ⟨segments, hsegments, hfound⟩ := ok_of_bind_iff.1 hfound
  obtain ⟨globals, hglobals, hfound⟩ := ok_of_bind_iff.1 hfound
  obtain rfl := ok_of_pure_iff.1 hfound
  simp only [List.forall_mem_append] at hP
  obtain ⟨⟨⟨hexports, hstart⟩, hsegmentsP⟩, hglobalsP⟩ := hP
  refine ⟨fun entry hentry function hfunction => ?_, fun function hfunction => ?_, ?_, ?_⟩
  · have hvalue : function ∈ m.exportSites.map (·.2) := by
      rw [exportSites, map_snd_sitesOf]
      exact List.mem_filterMap.2 ⟨entry, hentry, hfunction⟩
    exact List.forall_mem_map.2 hexports function hvalue
  · exact hstart _ (List.mem_map_of_mem (Option.mem_toList.2 hfunction))
  · have hall := forallOk_collect_iff.1 ⟨segments, hsegments, hsegmentsP⟩
    exact forall_mem_zipIdx_iff.1 fun entry hentry =>
      ElementSegment.forallOk_references (hall entry hentry)
  · have hall := forallOk_collect_iff.1 ⟨globals, hglobals, hglobalsP⟩
    exact forall_mem_zipIdx_iff.1 fun entry hentry => Global.forallOk_references (hall entry hentry)

end WasmMeter
