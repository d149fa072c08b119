import WasmMeter.Gas.Indexed
import WasmMeter.Proofs.Module.Index
import WasmMeter.Proofs.Traversal

/-!
Metering through an index. Each step of metering a module with an index of its sections is the same step
on the list of the sections, and leaves behind an index that is up to date. So an index is up to date in
every module that can be reached, and what it gives is what looking through the sections would give.
-/
namespace WasmMeter

namespace Module

variable {m : Module} {kind : SectionKind}

/-- A section is put in if the slot of its kind is empty. -/
theorem anchor_indexed (hkind : kind ≠ .custom) (position : Nat) (s : Section) :
    (if (m.indexed.index.slot? kind).isSome then m.indexed else m.indexed.insert position s) =
      (if (m.position? kind).isSome then m else m.insert position s).indexed := by
  rw [slot?_indexed hkind]
  split <;> rfl

/-- Adding the missing sections keeps the index up to date: it gives the index of the module with them
added. -/
theorem withAnchors_indexed (m : Module) :
    m.indexed.withAnchors = (Metering.withAnchors m).indexed := by
  unfold IndexedModule.withAnchors Metering.withAnchors
  dsimp only
  rw [anchor_indexed (by decide)]
  generalize (if (m.position? .types).isSome then m
    else m.insert 0 (.build ⟨.types, []⟩)) = typed
  rw [anchor_indexed (by decide), slot?_indexed (by decide)]

theorem reserveType_indexed (m : Module) :
    m.indexed.reserveType = ((Metering.reserveType m).1.indexed, (Metering.reserveType m).2) := by
  unfold IndexedModule.reserveType Metering.reserveType
  dsimp only
  rw [IndexedModule.typeEntries, contents?_indexed (by decide)]
  cases m.typeEntries.idxOf? Metering.gasType with
  | none => rw [modify_indexed (by decide)]
  | some index => rfl

theorem addImport_indexed (m : Module) (config : GasConfig) (typeIndex : UInt32) :
    m.indexed.addImport config typeIndex = (Metering.addImport m config typeIndex).indexed :=
  modify_indexed (by decide) _

/-- Adjusting the section that the index points at is adjusting the section of the kind. -/
theorem adjust_indexed (hkind : kind ≠ .custom)
    (change : kind.Contents → Except Error kind.Contents) :
    m.indexed.adjust kind change = indexed <$> m.adjust kind change := by
  unfold IndexedModule.adjust adjust
  rw [contents?_indexed hkind]
  cases m.contents? kind with
  | none => rfl
  | some contents =>
      dsimp only
      rw [map_bind]
      refine bind_congr fun changed => ?_
      split
      · rfl
      · rw [modify_indexed hkind]
        rfl

/-- The four adjustments of the move, found by index, are those of the plain module. -/
theorem mapReferences_indexed (f : UInt32 → UInt32) (m : Module) :
    m.indexed.mapReferences f = indexed <$> m.mapReferences f := by
  unfold IndexedModule.mapReferences mapReferences
  rw [adjust_indexed (by decide), bind_map_left, map_bind]
  refine bind_congr fun _ => ?_
  rw [adjust_indexed (by decide), bind_map_left, map_bind]
  refine bind_congr fun _ => ?_
  rw [adjust_indexed (by decide), bind_map_left, map_bind]
  exact bind_congr fun _ => adjust_indexed (by decide) _

theorem meterBodies_indexed (m : Module) (costs : CostModel) (gasFunction : UInt32) :
    m.indexed.meterBodies costs gasFunction =
      indexed <$> Metering.meterBodies m costs gasFunction := by
  unfold IndexedModule.meterBodies Metering.meterBodies
  rw [contents?_indexed (by decide)]
  cases m.contents? .code with
  | none => rfl
  | some bodies =>
      dsimp only
      rw [map_bind, functionCount_indexed]
      refine bind_congr fun metered => ?_
      rw [modify_indexed (by decide)]
      rfl

theorem typeReferences_indexed (m : Module) : m.indexed.typeReferences = m.typeReferences := by
  unfold IndexedModule.typeReferences typeReferences
  rw [IndexedModule.importEntries, IndexedModule.declarations, contents?_indexed (by decide),
    contents?_indexed (by decide)]

theorem functionReferences_indexed (m : Module) :
    m.indexed.functionReferences = m.functionReferences := by
  unfold IndexedModule.functionReferences functionReferences
  rw [IndexedModule.exportEntries, IndexedModule.elementSegments, IndexedModule.globalEntries,
    contents?_indexed (by decide), contents?_indexed (by decide), contents?_indexed (by decide),
    contents?_indexed (by decide)]

/-- The final check reads the same sections through the index, and so reports the same error. -/
theorem check_indexed (m : Module) : m.indexed.check = Metering.checkModule m := by
  unfold IndexedModule.check Metering.checkModule
  rw [IndexedModule.typeEntries, contents?_indexed (by decide), typeReferences_indexed,
    functionCount_indexed, functionReferences_indexed]

end Module

/-- A metered module with an index of its sections. -/
def Metered.indexed (result : Metered) : IndexedModule.Metered :=
  ⟨result.module.indexed, result.gasFunction⟩

/-- Metering through an index is metering the list of the sections. -/
theorem Module.meter_indexed (m : Module) (config : GasConfig) (costs : CostModel) :
    m.indexed.meter config costs = Metered.indexed <$> m.meter config costs := by
  unfold IndexedModule.meter meter
  rw [contents?_indexed (by decide), IndexedModule.declarations, contents?_indexed (by decide)]
  cases m.contents? .code with
  | none => rfl
  | some bodies =>
      dsimp only
      split
      · rfl
      rw [withAnchors_indexed, reserveType_indexed]
      dsimp only
      rw [importedCount_indexed, addImport_indexed, mapReferences_indexed, bind_map_left, map_bind]
      refine bind_congr fun moved => ?_
      rw [meterBodies_indexed, bind_map_left, map_bind]
      refine bind_congr fun metered => ?_
      rw [check_indexed, map_bind]
      rfl

/-- So bytes may be metered through an index. -/
theorem addGas_eq_indexed (bytes : List UInt8) (config : GasConfig) :
    addGas bytes config = do
      let m ← IndexedModule.ofBytes bytes
      let metered ← m.meter config config.costModel
      let result := metered.module.toBytes
      let _ ← Module.ofBytes result
      return result := by
  have hread : IndexedModule.ofBytes bytes = Module.indexed <$> Module.ofBytes bytes :=
    (map_eq_pure_bind Module.indexed (Module.ofBytes bytes)).symm
  rw [hread, bind_map_left]
  refine bind_congr fun m => ?_
  rw [Module.meter_indexed, bind_map_left]
  rfl

namespace IndexedModule

variable {m m' : IndexedModule}

/-- The modules that come of making a module of any sections, reading one, putting sections in, changing
contents, and metering. -/
inductive Reachable : IndexedModule → Prop where
  | new (sections : List Section) : Reachable (.new sections)
  | read {input : List UInt8} {m : IndexedModule} (h : IndexedModule.ofBytes input = .ok m) :
      Reachable m
  | inserted {m m' : IndexedModule} {position : Nat} {s : Section} (h : Reachable m)
      (hinsert : m.insert? position s = some m') : Reachable m'
  | modified {m : IndexedModule} (h : Reachable m) {kind : SectionKind} (hkind : kind ≠ .custom)
      (change : kind.Contents → kind.Contents) : Reachable (m.modify kind change)
  | metered {m : IndexedModule} {config : GasConfig} {costs : CostModel} {result : Metered}
      (h : Reachable m) (hmeter : m.meter config costs = .ok result) : Reachable result.module

/-- The index is the one that the sections give. -/
def UpToDate (m : IndexedModule) : Prop := m.index = .build m.sections

/-- A module with an up-to-date index is the one that indexing its sections gives. -/
theorem UpToDate.eq_indexed (h : m.UpToDate) : m = m.toModule.indexed :=
  congrArg (IndexedModule.mk m.toModule) h

theorem upToDate_new (sections : List Section) : (new sections).UpToDate := rfl

theorem upToDate_of_ofBytes {input : List UInt8} (h : IndexedModule.ofBytes input = .ok m) :
    m.UpToDate := by
  obtain ⟨_, -, h⟩ := ok_of_bind_iff.1 h
  rw [← ok_of_pure_iff.1 h]
  exact upToDate_new _

/-- Positions are looked for again. -/
theorem upToDate_of_insert? {position : Nat} {s : Section}
    (h : m.insert? position s = some m') : m'.UpToDate := by
  obtain ⟨-, h⟩ := Option.ite_none_right_eq_some.1 h
  rw [← Option.some.inj h]
  exact upToDate_new _

theorem UpToDate.modify (h : m.UpToDate) {kind : SectionKind} (hkind : kind ≠ .custom)
    (change : kind.Contents → kind.Contents) : (m.modify kind change).UpToDate := by
  rw [h.eq_indexed, Module.modify_indexed hkind]
  exact upToDate_new _

theorem UpToDate.meter (h : m.UpToDate) {config : GasConfig} {costs : CostModel} {result : Metered}
    (hmeter : m.meter config costs = .ok result) : result.module.UpToDate := by
  rw [h.eq_indexed, Module.meter_indexed, map_eq_pure_bind] at hmeter
  obtain ⟨_, -, hmeter⟩ := ok_of_bind_iff.1 hmeter
  rw [← ok_of_pure_iff.1 hmeter]
  exact upToDate_new _

/-- The index is up to date after any history of reads, insertions, changes and meterings. -/
theorem Reachable.upToDate (h : m.Reachable) : m.UpToDate := by
  induction h with
  | new sections => exact upToDate_new sections
  | read h => exact upToDate_of_ofBytes h
  | inserted _ hinsert => exact upToDate_of_insert? hinsert
  | modified _ hkind change ih => exact ih.modify hkind change
  | metered _ hmeter ih => exact ih.meter hmeter

/-- However a module is made, its index is that of its sections. So contents are looked up and changed
in the last section of their kind, and all custom sections are found. -/
theorem accesses_of_reachable (h : m.Reachable) :
    m.index.Tracks m.toModule ∧ (∀ kind, kind ≠ .custom → m.AccessesLast kind) ∧
      m.customs = m.sections.filterMap (·.payload.contents? .custom) := by
  rw [h.upToDate.eq_indexed]
  exact ⟨Module.tracks_indexed _, fun kind hkind => Module.accessesLast_indexed hkind _,
    Module.customs_indexed _⟩

/-- A module with two type sections. -/
def twoTypes : IndexedModule :=
  .new [.build ⟨.types, []⟩, .build ⟨.types, []⟩, .build ⟨.functions, []⟩, .build ⟨.code, []⟩]

/-- The last type section counts, behind a custom section that is put in; metering puts the imports
right behind it. -/
theorem accesses_of_reachable_twoTypes :
    ∃ m result, twoTypes.insert? 0 (.build ⟨.custom, ⟨"note", []⟩⟩) = some m ∧
      (m.modify .types id).meter .standard (.constant 1) = .ok result ∧
      result.module.index.slot? .types = some 2 ∧ result.module.index.slot? .imports = some 3 ∧
      result.module.index.customs = [0] ∧ result.module.Reachable ∧
      result.module.index.Tracks result.module.toModule ∧
      (∀ kind, kind ≠ .custom → result.module.AccessesLast kind) ∧
      result.module.customs =
        result.module.sections.filterMap (·.payload.contents? .custom) := by
  have hok : (do
      let m := twoTypes.insert 0 (.build ⟨.custom, ⟨"note", []⟩⟩)
      let result ← (m.modify .types id).meter .standard (.constant 1)
      return (result.module.index.slot? .types, result.module.index.slot? .imports,
        result.module.index.customs) : Except Error _) = .ok (some 2, some 3, [0]) := by
    decide +kernel
  obtain ⟨result, hmeter, hok⟩ := ok_of_bind_iff.1 hok
  simp only [ok_of_pure_iff, Prod.mk.injEq] at hok
  obtain ⟨htypes, himports, hcustoms⟩ := hok
  have hinsert : twoTypes.insert? 0 (.build ⟨.custom, ⟨"note", []⟩⟩) = some _ := rfl
  have hstart : twoTypes.Reachable := .new _
  have hreachable : result.module.Reachable :=
    .metered (.modified (.inserted hstart hinsert) (by decide) id) hmeter
  exact ⟨_, result, hinsert, hmeter, htypes, himports, hcustoms, hreachable,
    accesses_of_reachable hreachable⟩

end IndexedModule

end WasmMeter
