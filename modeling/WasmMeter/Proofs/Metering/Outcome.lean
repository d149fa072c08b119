import WasmMeter.Gas.Metering
import WasmMeter.Proofs.Disassembly.Editing
import WasmMeter.Proofs.Module.Contents
import WasmMeter.Proofs.Traversal

/-!
What metering does to a module, said once. Metering is a chain of changes to sections of different
kinds; here each link is described by the contents that it leaves behind, and the whole chain by a
single structure from which the properties of metering are derived.
-/
namespace WasmMeter

namespace Module

variable {m other : Module}

/-- The index that the metering import takes: the number of imported functions, in 32 bits as every
index is. -/
def insertionPoint (m : Module) : UInt32 := (m.importedCount .function).toUInt32

/-- Contents are adjusted under their own kind, if there are any, and nothing else changes. -/
theorem adjust_eq_ok {kind : SectionKind} {change : kind.Contents → Except Error kind.Contents}
    (h : m.adjust kind change = .ok other) :
    (m.contents? kind).mapM change = .ok (other.contents? kind) ∧
      ∀ k, k ≠ kind → other.contents? k = m.contents? k := by
  unfold adjust at h
  cases hc : m.contents? kind with
  | none =>
      simp only [hc] at h
      obtain rfl := ok_of_pure_iff.1 h
      exact ⟨by rw [hc]; rfl, fun _ _ => rfl⟩
  | some contents =>
      simp only [hc] at h
      obtain ⟨changed, hchange, h⟩ := ok_of_bind_iff.1 h
      have hm : (some contents).mapM change = .ok (some changed) := by
        rw [Option.mapM_some, hchange]; rfl
      rw [hm]
      by_cases he : changed = contents
      · rw [if_pos he] at h
        obtain rfl := ok_of_pure_iff.1 h
        exact ⟨by rw [hc, he], fun _ _ => rfl⟩
      · rw [if_neg he] at h
        obtain rfl := ok_of_pure_iff.1 h
        exact ⟨by rw [contents?_modify_self, hc]; rfl,
          fun k hk => contents?_modify_of_ne hk _⟩

/-- Outside the code, the references of a module are replaced and nothing else is. -/
structure ReferencesReplaced (f : UInt32 → UInt32) (m other : Module) : Prop where
  exports : other.contents? .exports = (m.contents? .exports).map (·.map (Export.mapReferences f))
  start : other.contents? .start = (m.contents? .start).map f
  elements : (m.contents? .elements).mapM (·.mapM (ElementSegment.mapReferences f)) =
    .ok (other.contents? .elements)
  globals : (m.contents? .globals).mapM (·.mapM (Global.mapReferences f)) =
    .ok (other.contents? .globals)
  untouched : ∀ kind, kind ∉ [SectionKind.exports, .start, .elements, .globals] →
    other.contents? kind = m.contents? kind

/-- When the move succeeds, each of the four sections with references holds its entries moved one by one
and every other section is as before. -/
theorem mapReferences_eq_ok {f : UInt32 → UInt32} (h : m.mapReferences f = .ok other) :
    ReferencesReplaced f m other := by
  obtain ⟨first, hexports, h⟩ := ok_of_bind_iff.1 h
  obtain ⟨second, hstart, h⟩ := ok_of_bind_iff.1 h
  obtain ⟨third, helements, hglobals⟩ := ok_of_bind_iff.1 h
  obtain ⟨hexports, keep₁⟩ := adjust_eq_ok hexports
  obtain ⟨hstart, keep₂⟩ := adjust_eq_ok hstart
  obtain ⟨helements, keep₃⟩ := adjust_eq_ok helements
  obtain ⟨hglobals, keep₄⟩ := adjust_eq_ok hglobals
  refine ⟨?_, ?_, ?_, ?_, ?_⟩
  · rw [keep₄ _ (by decide), keep₃ _ (by decide), keep₂ _ (by decide)]
    exact (option_mapM_pure_iff.1 hexports).symm
  · rw [keep₄ _ (by decide), keep₃ _ (by decide), ← keep₁ _ (by decide)]
    exact (option_mapM_pure_iff.1 hstart).symm
  · rw [keep₂ _ (by decide), keep₁ _ (by decide)] at helements
    rw [keep₄ _ (by decide), helements]
  · rw [keep₃ _ (by decide), keep₂ _ (by decide), keep₁ _ (by decide)] at hglobals
    exact hglobals
  · intro kind hk
    simp only [List.mem_cons, List.not_mem_nil, or_false, not_or] at hk
    rw [keep₄ _ hk.2.2.2, keep₃ _ hk.2.2.1, keep₂ _ hk.2.1, keep₁ _ hk.1]

end Module

namespace Metering

variable {m other : Module}

/-- The first reference that does not resolve is reported. -/
theorem checkReferences_eq {space : IndexSpace} {length : UInt32}
    (references : List (Site × UInt32)) :
    checkReferences space length references =
      match references.find? fun r => length ≤ r.2 with
      | none => .ok ()
      | some r => .error (.indexOutOfRange space r.2 length r.1) := by
  induction references with
  | nil => rfl
  | cons r references ih =>
      obtain ⟨site, index⟩ := r
      rw [checkReferences]
      split
      · next hlt =>
        rw [ih, List.find?_cons_of_neg (by simpa using hlt)]
      · next hge =>
        rw [List.find?_cons_of_pos (by simpa using hge)]
        rfl

/-- The check passes exactly when every reference is below the length of the space. -/
theorem checkReferences_eq_ok_iff {space : IndexSpace} {length : UInt32}
    {references : List (Site × UInt32)} :
    checkReferences space length references = .ok () ↔ ∀ r ∈ references, r.2 < length := by
  have hnone : (references.find? fun r => length ≤ r.2) = none ↔
      ∀ r ∈ references, r.2 < length := by
    simp [List.find?_eq_none]
  rw [← hnone, checkReferences_eq]
  cases references.find? fun r => length ≤ r.2 with
  | none => exact iff_of_true rfl rfl
  | some r => constructor <;> intro h <;> cases h

/-- A reference that resolves does not matter. -/
theorem checkReferences_append_cons {space : IndexSpace} {index length : UInt32}
    (h : index < length) (site : Site) (before after : List (Site × UInt32)) :
    checkReferences space length (before ++ (site, index) :: after) =
      checkReferences space length (before ++ after) := by
  rw [checkReferences_eq, checkReferences_eq, List.find?_append, List.find?_append,
    List.find?_cons_of_neg (by simpa using h)]

/-- One that does not is reported unless one in front of it is. -/
theorem checkReferences_append_cons_of_le {space : IndexSpace} {index length : UInt32}
    (h : length ≤ index) (site : Site) (before after : List (Site × UInt32)) :
    checkReferences space length (before ++ (site, index) :: after) =
      (do
        checkReferences space length before
        .error (.indexOutOfRange space index length site)) := by
  have hfails : decide (length ≤ index) = true := decide_eq_true h
  rw [checkReferences_eq, checkReferences_eq, List.find?_append]
  cases before.find? fun r => length ≤ r.2 with
  | none =>
      rw [Option.none_or, List.find?_cons, hfails]
      rfl
  | some r => rfl

/-- The final check looks at no code and no custom section. -/
theorem checkModule_congr
    (h : ∀ kind, kind ≠ .custom → kind ≠ .code → other.contents? kind = m.contents? kind) :
    checkModule other = checkModule m := by
  unfold checkModule Module.typeReferences Module.functionReferences Module.functionCount
    Module.importedCount Module.typeEntries Module.importEntries Module.declarations
    Module.exportEntries Module.elementSegments Module.globalEntries
  rw [h .types (by decide) (by decide), h .imports (by decide) (by decide),
    h .functions (by decide) (by decide), h .exports (by decide) (by decide),
    h .start (by decide) (by decide), h .elements (by decide) (by decide),
    h .globals (by decide) (by decide)]

theorem checkModule_eq_ok_iff :
    checkModule m = .ok () ↔ (∀ r ∈ m.typeReferences, r.2 < m.typeEntries.length.toUInt32) ∧
      ∃ references, m.functionReferences = .ok references ∧
        ∀ r ∈ references, r.2 < m.functionCount := by
  unfold checkModule
  rw [ok_of_bind_iff]
  constructor
  · rintro ⟨⟨⟩, htypes, h⟩
    obtain ⟨references, hreferences, h⟩ := ok_of_bind_iff.1 h
    exact ⟨checkReferences_eq_ok_iff.1 htypes, references, hreferences,
      checkReferences_eq_ok_iff.1 h⟩
  · rintro ⟨htypes, references, hreferences, h⟩
    exact ⟨(), checkReferences_eq_ok_iff.2 htypes, ok_of_bind_iff.2 ⟨references, hreferences,
      checkReferences_eq_ok_iff.2 h⟩⟩

/-! ### Anchors, type and import -/

/-- Adding the missing sections reads as adding nothing: they are empty, and no other section changes.
-/
theorem contents?_withAnchors (m : Module) :
    (withAnchors m).contents? .types = some m.typeEntries ∧
      (withAnchors m).contents? .imports = some m.importEntries ∧
      ∀ kind, kind ≠ .types → kind ≠ .imports →
        (withAnchors m).contents? kind = m.contents? kind := by
  obtain ⟨htypes, keep₁⟩ := m.contents?_anchor .types 0 []
  unfold withAnchors
  dsimp only
  generalize (if (m.position? .types).isSome then m
    else m.insert 0 (.build ⟨.types, []⟩)) = typed at *
  obtain ⟨himports, keep₂⟩ := typed.contents?_anchor .imports
    (((typed.position? .types).map (· + 1)).getD 0) []
  refine ⟨?_, ?_, fun kind ht hi => ?_⟩
  · rw [keep₂ _ (by decide), htypes]
  · rw [himports, keep₁ _ (by decide)]
  · rw [keep₂ _ hi, keep₁ _ ht]

/-- How a signature is found among type entries or added to them: the entries that there are then,
and the position of the signature in them. -/
inductive Reserves (type : FunctionType) (entries : List FunctionType) :
    List FunctionType → Nat → Prop where
  | found {position : Nat} (here : entries[position]? = some type)
      (first : ∀ i < position, entries[i]? ≠ some type) : Reserves type entries entries position
  | added (missing : type ∉ entries) :
      Reserves type entries (entries ++ [type]) entries.length

namespace Reserves

variable {type : FunctionType} {entries entries' entries'' : List FunctionType}
  {position position' : Nat}

theorem getElem?_eq (h : Reserves type entries entries' position) :
    entries'[position]? = some type := by
  cases h with
  | found here first => exact here
  | added missing => exact List.getElem?_concat_length

/-- No earlier entry is the reserved type: it is the first one that is found. -/
theorem getElem?_ne (h : Reserves type entries entries' position) {i : Nat} (hi : i < position) :
    entries'[i]? ≠ some type := by
  cases h with
  | found here first => exact first i hi
  | added missing =>
      rw [List.getElem?_append_left hi]
      exact fun hmem => missing (List.mem_of_getElem? hmem)

theorem lt_length (h : Reserves type entries entries' position) : position < entries'.length :=
  (List.getElem?_eq_some_iff.1 h.getElem?_eq).1

theorem eq_ite (h : Reserves type entries entries' position) :
    entries' = if type ∈ entries then entries else entries ++ [type] := by
  cases h with
  | found here first => rw [if_pos (List.mem_of_getElem? here)]
  | added missing => rw [if_neg missing]

theorem length_eq (h : Reserves type entries entries' position) :
    entries'.length = if type ∈ entries then entries.length else entries.length + 1 := by
  rw [h.eq_ite]
  split
  · rfl
  · exact List.length_append

theorem length_le (h : Reserves type entries entries' position) :
    entries.length ≤ entries'.length ∧ entries'.length ≤ entries.length + 1 := by
  rw [h.length_eq]
  split <;> omega

/-- An index that no entry had before has the new signature. -/
theorem getElem?_of_lt (h : Reserves type entries entries' position) {i : Nat}
    (hi : i < entries'.length) : entries'[i]? = some (entries[i]?.getD type) := by
  cases h with
  | found here first => rw [List.getElem?_eq_getElem hi, Option.getD_some]
  | added missing =>
      rw [List.length_append, List.length_singleton] at hi
      by_cases hlt : i < entries.length
      · rw [List.getElem?_append_left hlt, List.getElem?_eq_getElem hlt, Option.getD_some]
      · obtain rfl : i = entries.length := by omega
        rw [List.getElem?_concat_length, List.getElem?_eq_none (Nat.le_refl _), Option.getD_none]

/-- A signature that was found or added is found the next time. -/
theorem again (h : Reserves type entries entries' position)
    (h' : Reserves type entries' entries'' position') :
    entries'' = entries' ∧ position' = position := by
  cases h' with
  | found here first =>
      refine ⟨rfl, Nat.le_antisymm ?_ ?_⟩
      · exact Nat.not_lt.1 fun hlt => first position hlt h.getElem?_eq
      · exact Nat.not_lt.1 fun hlt => h.getElem?_ne hlt here
  | added missing => exact absurd (List.mem_of_getElem? h.getElem?_eq) missing

end Reserves

/-- The type of the gas function is found or appended in the types, and nothing else is touched. -/
theorem reserves_reserveType {entries : List FunctionType}
    (h : m.contents? .types = some entries) :
    ∃ entries' position, Reserves gasType entries entries' position ∧
      (reserveType m).2 = position.toUInt32 ∧
      (reserveType m).1.contents? .types = some entries' ∧
      ∀ kind, kind ≠ .types → (reserveType m).1.contents? kind = m.contents? kind := by
  have he : m.typeEntries = entries := by rw [Module.typeEntries, h, Option.getD_some]
  unfold reserveType
  rw [he]
  dsimp only
  cases hi : entries.idxOf? gasType with
  | some position =>
      obtain ⟨hlt, here, first⟩ := List.idxOf?_eq_some_iff.1 hi
      refine ⟨entries, position, .found ?_ ?_, rfl, h, fun _ _ => rfl⟩
      · rw [List.getElem?_eq_getElem hlt, here]
      · intro i hi
        rw [List.getElem?_eq_getElem (by omega), Ne, Option.some.injEq]
        exact first i hi
  | none =>
      refine ⟨entries ++ [gasType], entries.length, .added (List.idxOf?_eq_none_iff.1 hi), rfl,
        ?_, fun kind hk => Module.contents?_modify_of_ne hk _⟩
      rw [Module.contents?_modify_self, h, Option.map_some]

/-- The entry with which a module imports the function that takes the charges. -/
def gasImport (config : GasConfig) (typeIndex : UInt32) : Import :=
  ⟨config.moduleName, config.fieldName, .function typeIndex⟩

/-- The use of a type by that entry stands behind those by the other imports. -/
theorem typeReferences_of_import {config : GasConfig} {typeIndex : UInt32} {entries : List Import}
    (h : m.importEntries = entries ++ [gasImport config typeIndex]) :
    m.typeReferences = (entries.filterMap fun entry =>
        entry.type.functionType?.map (Site.importEntry entry.moduleName entry.fieldName, ·)) ++
      (.importEntry config.moduleName config.fieldName, typeIndex) ::
        Module.sites .declaration m.declarations := by
  rw [Module.typeReferences, h, List.filterMap_append, List.append_assoc]
  rfl

theorem contents?_addImport (config : GasConfig) (typeIndex : UInt32) {entries : List Import}
    (h : m.contents? .imports = some entries) :
    (addImport m config typeIndex).contents? .imports =
        some (entries ++ [gasImport config typeIndex]) ∧
      ∀ kind, kind ≠ .imports →
        (addImport m config typeIndex).contents? kind = m.contents? kind := by
  refine ⟨?_, fun kind hk => Module.contents?_modify_of_ne hk _⟩
  rw [addImport, Module.contents?_modify_self, h, Option.map_some]
  rfl

theorem importedCount_of_contents? {entries : List Import}
    (h : m.contents? .imports = some entries) (kind : ExternalKind) :
    m.importedCount kind = entries.countP (·.type.kind = kind) := by
  rw [Module.importedCount, Module.importEntries, h, Option.getD_some]

/-- The module with its new import, before anything moves. -/
def extend (m : Module) (config : GasConfig) : Module :=
  addImport (reserveType (withAnchors m)).1 config (reserveType (withAnchors m)).2

/-- The entries that the module is extended by, and the index that is settled before the import is
there. -/
theorem contents?_extend (m : Module) (config : GasConfig) :
    ((reserveType (withAnchors m)).1.importedCount .function).toUInt32 = m.insertionPoint ∧
      ∃ types position, Reserves gasType m.typeEntries types position ∧
        (extend m config).contents? .types = some types ∧
        (extend m config).contents? .imports =
          some (m.importEntries ++ [gasImport config position.toUInt32]) ∧
        ∀ kind, kind ≠ .types → kind ≠ .imports →
          (extend m config).contents? kind = m.contents? kind := by
  obtain ⟨htypes, himports, keepAnchors⟩ := contents?_withAnchors m
  obtain ⟨types, position, hreserves, hposition, htyped, keepTypes⟩ :=
    reserves_reserveType htypes
  have hentries : (reserveType (withAnchors m)).1.contents? .imports = some m.importEntries := by
    rw [keepTypes _ (by decide), himports]
  obtain ⟨hextended, keepImports⟩ :=
    contents?_addImport config (reserveType (withAnchors m)).2 hentries
  refine ⟨?_, types, position, hreserves, ?_, ?_, fun kind ht hi => ?_⟩
  · rw [importedCount_of_contents? hentries, Module.insertionPoint, Module.importedCount]
  · rw [extend, keepImports _ (by decide), htyped]
  · rw [extend, hextended, hposition]
  · rw [extend, keepImports _ hi, keepTypes _ ht, keepAnchors _ ht hi]

/-! ### Bodies -/

/-- The body is metered: its references are moved and resolve, and it pays first what its
instructions cost. -/
structure BodyMetered (costs : CostModel) (gasFunction functions : UInt32)
    (body metered : FunctionBody) : Prop where
  disassembled : ∃ d, Disassembly.ofBytesAt body.codeOffset body.code = .ok d ∧
    (∀ function ∈ d.references, shift function gasFunction 1 < functions) ∧
    metered.code = ((d.mapReferences (shift · gasFunction 1)).prepend
      (prologue (costs.charge d.instructions) gasFunction)).assemble
  locals : metered.locals = body.locals
  codeOffset : metered.codeOffset = body.codeOffset

/-- A body that is metered without an error is the one described by `BodyMetered`. -/
theorem bodyMetered_of_meterBody {costs : CostModel} {gasFunction functions : UInt32} {site : Site}
    {body metered : FunctionBody}
    (h : meterBody costs gasFunction functions site body = .ok metered) :
    BodyMetered costs gasFunction functions body metered := by
  obtain ⟨d, hd, h⟩ := ok_of_bind_iff.1 h
  obtain ⟨⟨⟩, hcheck, h⟩ := ok_of_bind_iff.1 h
  obtain rfl := ok_of_pure_iff.1 h
  refine ⟨⟨d, hd, ?_, rfl⟩, rfl, rfl⟩
  intro function hf
  have hmoved := checkReferences_eq_ok_iff.1 hcheck (site, shift function gasFunction 1)
  refine hmoved (List.mem_map.2 ⟨_, ?_, rfl⟩)
  rw [Disassembly.references_mapReferences]
  exact List.mem_map.2 ⟨function, hf, rfl⟩

/-- Only the code is replaced, by bodies that were metered one by one. -/
theorem exists_modify_of_meterBodies {costs : CostModel} {gasFunction : UInt32}
    (h : meterBodies m costs gasFunction = .ok other) :
    ∃ bodies metered, m.contents? .code = some bodies ∧
      List.Forall₂ (BodyMetered costs gasFunction m.functionCount) bodies metered ∧
      other = m.modify .code fun _ => metered := by
  unfold meterBodies at h
  cases hc : m.contents? .code with
  | none => rw [hc] at h; cases h
  | some bodies =>
      rw [hc] at h
      obtain ⟨metered, hm, h⟩ := ok_of_bind_iff.1 h
      rw [mapM_eq_ok_iff, Module.sites, List.forall₂_map_left_iff] at hm
      exact ⟨bodies, metered, rfl,
        forall₂_zipIdx_left_iff.1 (hm.imp fun _ _ => bodyMetered_of_meterBody),
        (ok_of_pure_iff.1 h).symm⟩

theorem meterBodies_eq_ok {costs : CostModel} {gasFunction : UInt32}
    (h : meterBodies m costs gasFunction = .ok other) :
    (∃ bodies metered, m.contents? .code = some bodies ∧ other.contents? .code = some metered ∧
        List.Forall₂ (BodyMetered costs gasFunction m.functionCount) bodies metered) ∧
      ∀ kind, kind ≠ .code → other.contents? kind = m.contents? kind := by
  obtain ⟨bodies, metered, hcode, hmetered, rfl⟩ := exists_modify_of_meterBodies h
  refine ⟨⟨bodies, metered, hcode, ?_, hmetered⟩, fun kind hk => Module.contents?_modify_of_ne hk _⟩
  rw [Module.contents?_modify_self, hcode, Option.map_some]

/-! ### The whole chain -/

/-- What is left behind of each kind when a module has been rewritten. -/
structure Rewritten (m : Module) (config : GasConfig) (costs : CostModel) (other : Module) :
    Prop where
  typesAndImports : ∃ types position, Reserves gasType m.typeEntries types position ∧
    other.contents? .types = some types ∧
    other.contents? .imports = some (m.importEntries ++ [gasImport config position.toUInt32])
  exports : other.contents? .exports =
    (m.contents? .exports).map (·.map (Export.mapReferences (shift · m.insertionPoint 1)))
  start : other.contents? .start = (m.contents? .start).map (shift · m.insertionPoint 1)
  elements : (m.contents? .elements).mapM
      (·.mapM (ElementSegment.mapReferences (shift · m.insertionPoint 1))) =
    .ok (other.contents? .elements)
  globals : (m.contents? .globals).mapM
      (·.mapM (Global.mapReferences (shift · m.insertionPoint 1))) = .ok (other.contents? .globals)
  code : ∃ bodies metered, m.contents? .code = some bodies ∧ other.contents? .code = some metered ∧
    List.Forall₂ (BodyMetered costs m.insertionPoint other.functionCount) bodies metered
  untouched : ∀ kind,
    kind ∉ [SectionKind.types, .imports, .exports, .start, .elements, .globals, .code] →
    other.contents? kind = m.contents? kind

/-- What metering leaves behind: a module that was rewritten and checked. -/
structure Outcome (m : Module) (config : GasConfig) (costs : CostModel) (result : Metered) : Prop
    extends Rewritten m config costs result.module where
  gasFunction : result.gasFunction = m.insertionPoint
  checked : checkModule result.module = .ok ()

theorem functionCount_congr (himports : m.contents? .imports = other.contents? .imports)
    (hfunctions : m.contents? .functions = other.contents? .functions) :
    m.functionCount = other.functionCount := by
  unfold Module.functionCount Module.importedCount Module.importEntries Module.declarations
  rw [himports, hfunctions]

variable {config : GasConfig} {costs : CostModel}

theorem rewritten_of_meterBodies {moved : Module}
    (hmoved : (extend m config).mapReferences (shift · m.insertionPoint 1) = .ok moved)
    (hmetered : meterBodies moved costs m.insertionPoint = .ok other) :
    Rewritten m config costs other := by
  obtain ⟨-, types, position, hreserves, htypes, himports, keep⟩ := contents?_extend m config
  have hreplaced := Module.mapReferences_eq_ok hmoved
  have keepMoved := hreplaced.untouched
  obtain ⟨⟨before, after, hbefore, hafter, hbodies⟩, keepBodies⟩ := meterBodies_eq_ok hmetered
  refine ⟨⟨types, position, hreserves, ?_, ?_⟩, ?_, ?_, ?_, ?_, ⟨before, after, ?_, hafter, ?_⟩, ?_⟩
  · rw [keepBodies _ (by decide), keepMoved _ (by decide), htypes]
  · rw [keepBodies _ (by decide), keepMoved _ (by decide), himports]
  · rw [keepBodies _ (by decide), hreplaced.exports, keep _ (by decide) (by decide)]
  · rw [keepBodies _ (by decide), hreplaced.start, keep _ (by decide) (by decide)]
  · rw [keepBodies _ (by decide), ← hreplaced.elements, keep _ (by decide) (by decide)]
  · rw [keepBodies _ (by decide), ← hreplaced.globals, keep _ (by decide) (by decide)]
  · rw [← hbefore, keepMoved _ (by decide), keep _ (by decide) (by decide)]
  · rwa [functionCount_congr (keepBodies _ (by decide)) (keepBodies _ (by decide))]
  · intro kind hk
    simp only [List.mem_cons, List.not_mem_nil, or_false, not_or] at hk
    obtain ⟨ht, hi, he, hs, hl, hg, hc⟩ := hk
    rw [keepBodies _ hc, keepMoved _ (by simp [he, hs, hl, hg]), keep _ ht hi]

/-- Where there is a body for each declaration, metering is a chain of four steps. -/
theorem meter_eq {bodies : List FunctionBody} (hcode : m.contents? .code = some bodies)
    (hlength : m.declarations.length = bodies.length) :
    m.meter config costs = do
      let moved ← (extend m config).mapReferences (shift · m.insertionPoint 1)
      let metered ← meterBodies moved costs m.insertionPoint
      checkModule metered
      return ⟨metered, m.insertionPoint⟩ := by
  unfold Module.meter
  simp only [hcode, hlength, ne_eq, not_true_eq_false, if_false]
  rw [(contents?_extend m config).1]
  rfl

theorem length_eq_of_meter {result : Metered} (h : m.meter config costs = .ok result) :
    ∃ bodies, m.contents? .code = some bodies ∧ m.declarations.length = bodies.length := by
  unfold Module.meter at h
  cases hcode : m.contents? .code with
  | none => rw [hcode] at h; cases h
  | some bodies =>
      refine ⟨bodies, rfl, ?_⟩
      by_contra hlength
      simp only [hcode, ne_eq, hlength, not_false_eq_true, if_true] at h
      cases h

/-- Metering succeeds exactly if every link of the chain does. -/
theorem meter_eq_ok_iff {result : Metered} :
    m.meter config costs = .ok result ↔
      (∃ bodies, m.contents? .code = some bodies ∧ m.declarations.length = bodies.length) ∧
        (∃ moved, (extend m config).mapReferences (shift · m.insertionPoint 1) = .ok moved ∧
          meterBodies moved costs m.insertionPoint = .ok result.module) ∧
        checkModule result.module = .ok () ∧ result.gasFunction = m.insertionPoint := by
  constructor
  · intro h
    obtain ⟨bodies, hcode, hlength⟩ := length_eq_of_meter h
    rw [meter_eq hcode hlength] at h
    obtain ⟨moved, hmoved, h⟩ := ok_of_bind_iff.1 h
    obtain ⟨metered, hmetered, h⟩ := ok_of_bind_iff.1 h
    obtain ⟨⟨⟩, hchecked, h⟩ := ok_of_bind_iff.1 h
    obtain rfl := ok_of_pure_iff.1 h
    exact ⟨⟨bodies, hcode, hlength⟩, ⟨moved, hmoved, hmetered⟩, hchecked, rfl⟩
  · rintro ⟨⟨bodies, hcode, hlength⟩, ⟨moved, hmoved, hmetered⟩, hchecked, hgas⟩
    rw [meter_eq hcode hlength]
    refine ok_of_bind_iff.2 ⟨moved, hmoved, ok_of_bind_iff.2 ⟨_, hmetered,
      ok_of_bind_iff.2 ⟨(), hchecked, ok_of_pure_iff.2 ?_⟩⟩⟩
    rw [← hgas]

theorem outcome_of_meter {result : Metered} (h : m.meter config costs = .ok result) :
    Outcome m config costs result := by
  obtain ⟨-, ⟨moved, hmoved, hmetered⟩, hchecked, hpoint⟩ := meter_eq_ok_iff.1 h
  exact ⟨rewritten_of_meterBodies hmoved hmetered, hpoint, hchecked⟩

end Metering

end WasmMeter
