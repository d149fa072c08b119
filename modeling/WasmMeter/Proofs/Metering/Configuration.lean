import WasmMeter.Proofs.Metering.Insertion
import WasmMeter.Proofs.Module.ReferenceSites

/-!
What the configuration shows in. Whether a module is metered is settled before a body is charged, and
nothing but the text of one error looks at the names of the metering import. So two configurations
with any two cost models refuse a module alike, and where they do not, they leave behind the same
module up to the names of the new import and the constant that each body pays.
-/
namespace WasmMeter

open Metering

namespace Module

variable {m m' : Module} {kind other : SectionKind}

/-- Adjusting contents of one kind does not look at contents of another. -/
theorem adjust_modify (h : kind ≠ other) (change : kind.Contents → Except Error kind.Contents)
    (change' : other.Contents → other.Contents) :
    (m.modify other change').adjust kind change =
      (fun m => m.modify other change') <$> m.adjust kind change := by
  unfold adjust
  rw [contents?_modify_of_ne h]
  cases m.contents? kind with
  | none => rfl
  | some contents =>
      dsimp only
      rw [map_bind]
      refine bind_congr fun changed => ?_
      split
      · rfl
      · rw [modify_modify_of_ne (Ne.symm h)]
        rfl

/-- Imports are not looked at when references are replaced. -/
theorem mapReferences_modify_imports (f : UInt32 → UInt32) (change : List Import → List Import) :
    (m.modify .imports change).mapReferences f =
      (fun m => m.modify .imports change) <$> m.mapReferences f := by
  unfold mapReferences
  rw [adjust_modify (by decide), bind_map_left, map_bind]
  refine bind_congr fun _ => ?_
  rw [adjust_modify (by decide), bind_map_left, map_bind]
  refine bind_congr fun _ => ?_
  rw [adjust_modify (by decide), bind_map_left, map_bind]
  exact bind_congr fun _ => adjust_modify (by decide) _ _

end Module

namespace Metering

variable {m : Module} {config config' : GasConfig} {costs costs' : CostModel}
  {gasFunction functions : UInt32}

/-! ### Charging comes last -/

/-- The instructions of a body whose references resolve once they are moved. -/
def readBody (gasFunction functions : UInt32) (site : Site) (body : FunctionBody) :
    Except Error Disassembly := do
  let before ← Disassembly.ofBytesAt body.codeOffset body.code
  checkReferences .functions functions
    ((before.mapReferences (shift · gasFunction 1)).references.map (site, ·))
  return before

/-- The body with its references moved, charged for the instructions that it had. -/
def chargeBody (costs : CostModel) (gasFunction : UInt32) (read : FunctionBody × Disassembly) :
    FunctionBody :=
  { read.1 with code := ((read.2.mapReferences (shift · gasFunction 1)).prepend
      (prologue (costs.charge read.2.instructions) gasFunction)).assemble }

/-- Metering a body is reading it, which alone can fail, and then charging it, which alone looks at the
cost model. -/
theorem meterBody_eq (costs : CostModel) (gasFunction functions : UInt32) (site : Site)
    (body : FunctionBody) :
    meterBody costs gasFunction functions site body =
      (fun before => chargeBody costs gasFunction (body, before)) <$>
        readBody gasFunction functions site body := by
  unfold meterBody readBody
  simp only [map_bind]
  rfl

/-- Every body with its instructions. -/
def readBodies (m : Module) (gasFunction : UInt32) :
    Except Error (List (FunctionBody × Disassembly)) :=
  (Module.sites .body m.bodies).mapM fun (site, body) =>
    (body, ·) <$> readBody gasFunction m.functionCount site body

theorem meterBodies_eq {bodies : List FunctionBody} (hcode : m.contents? .code = some bodies)
    (costs : CostModel) (gasFunction : UInt32) :
    meterBodies m costs gasFunction =
      (fun read => m.modify .code fun _ => read.map (chargeBody costs gasFunction)) <$>
        readBodies m gasFunction := by
  have hbody : (fun (entry : Site × FunctionBody) =>
        meterBody costs gasFunction m.functionCount entry.1 entry.2) =
      fun entry => chargeBody costs gasFunction <$>
        (entry.2, ·) <$> readBody gasFunction m.functionCount entry.1 entry.2 := by
    funext entry
    rw [meterBody_eq, ← comp_map]
    rfl
  unfold meterBodies readBodies
  rw [Module.bodies, hcode, Option.getD_some]
  dsimp only
  rw [hbody, mapM_map_answers, bind_map_left, map_eq_pure_bind]

/-- Reads the bodies of a module whose references are moved, and checks what is outside of them. -/
def settleMoved (m moved : Module) : Except Error (Module × List (FunctionBody × Disassembly)) := do
  let read ← readBodies moved m.insertionPoint
  checkModule moved
  return (moved, read)

/-- All of metering that can fail: what is outside the code is moved and checked, and every body is
read, but no body is charged yet. -/
def settle (m : Module) (config : GasConfig) :
    Except Error (Module × List (FunctionBody × Disassembly)) := do
  settleMoved m (← (extend m config).mapReferences (shift · m.insertionPoint 1))

/-- What is left to do when all is settled: the bodies are charged. -/
def finish (m : Module) (costs : CostModel) (settled : Module × List (FunctionBody × Disassembly)) :
    Metered :=
  ⟨settled.1.modify .code fun _ => settled.2.map (chargeBody costs m.insertionPoint),
    m.insertionPoint⟩

/-- Metering a module with matching counts is settling it without the cost model, and then finishing
what was settled. -/
theorem meter_eq_finish {bodies : List FunctionBody} (hcode : m.contents? .code = some bodies)
    (hlength : m.declarations.length = bodies.length) :
    m.meter config costs = finish m costs <$> settle m config := by
  rw [meter_eq hcode hlength]
  unfold settle
  rw [map_bind]
  cases hmoved : (extend m config).mapReferences (shift · m.insertionPoint 1) with
  | error e => rfl
  | ok moved =>
      have hmovedCode : moved.contents? .code = some bodies := by
        obtain ⟨-, _, _, -, -, -, keep⟩ := contents?_extend m config
        rw [(Module.mapReferences_eq_ok hmoved).untouched _ (by decide),
          keep _ (by decide) (by decide), hcode]
      show (do
        let metered ← meterBodies moved costs m.insertionPoint
        checkModule metered
        return ⟨metered, m.insertionPoint⟩) = finish m costs <$> settleMoved m moved
      unfold settleMoved
      rw [meterBodies_eq hmovedCode, bind_map_left, map_bind]
      refine bind_congr fun read => ?_
      rw [checkModule_congr fun kind _ hkind => Module.contents?_modify_of_ne hkind _, map_bind]
      rfl

/-! ### The names of the import -/

/-- The index of the signature of the metering import. -/
def gasTypeIndex (m : Module) : UInt32 := (reserveType (withAnchors m)).2

/-- The number of types with that signature, in 32 bits. -/
def gasTypeBound (m : Module) : UInt32 :=
  (reserveType (withAnchors m)).1.typeEntries.length.toUInt32

theorem gasTypeIndex_lt (h : m.typeEntries.length + 1 < 2 ^ 32) :
    gasTypeIndex m < gasTypeBound m := by
  obtain ⟨types, position, hreserves, hposition, htypes, -⟩ :=
    reserves_reserveType (contents?_withAnchors m).1
  have hlt := hreserves.lt_length
  have hle := hreserves.length_le.2
  rw [gasTypeIndex, gasTypeBound, hposition, Module.typeEntries, htypes, Option.getD_some,
    UInt32.lt_iff_toNat_lt, UInt32.toNat_ofNat_of_lt' (show position < 2 ^ 32 by omega),
    UInt32.toNat_ofNat_of_lt' (show types.length < 2 ^ 32 by omega)]
  exact hlt

theorem contents?_imports_reserveType (m : Module) :
    (reserveType (withAnchors m)).1.contents? .imports = some m.importEntries := by
  obtain ⟨htypes, himports, -⟩ := contents?_withAnchors m
  obtain ⟨-, -, -, -, -, keep⟩ := reserves_reserveType htypes
  rw [keep _ (by decide), himports]

theorem contents?_imports_extend (m : Module) (config : GasConfig) :
    (extend m config).contents? .imports =
      some (m.importEntries ++ [gasImport config (gasTypeIndex m)]) :=
  (contents?_addImport config _ (contents?_imports_reserveType m)).1

/-- The types that imports refer to. -/
def importReferences (m : Module) : List (Site × UInt32) :=
  m.importEntries.filterMap fun entry =>
    entry.type.functionType?.map (.importEntry entry.moduleName entry.fieldName, ·)

/-- The error that the type of the metering import does not resolve. -/
def unresolvedImport (m : Module) (config : GasConfig) : Error :=
  .indexOutOfRange .types (gasTypeIndex m) (gasTypeBound m)
    (.importEntry config.moduleName config.fieldName)

/-- The imports, with the metering import under other names. -/
def rename (m : Module) (config : GasConfig) (other : Module) : Module :=
  other.modify .imports fun _ => m.importEntries ++ [gasImport config (gasTypeIndex m)]

/-- Extending under another configuration only renames the gas import. -/
theorem extend_rename (m : Module) (config config' : GasConfig) :
    extend m config' = rename m config' (extend m config) := by
  unfold rename extend addImport
  rw [Module.modify_modify_self]
  refine Module.modify_congr fun entries hentries => ?_
  rw [contents?_imports_reserveType, Option.some.injEq] at hentries
  rw [← hentries]
  rfl

/-- What is moved has the imports and the types that it was extended by. -/
structure Extended (m : Module) (config : GasConfig) (moved : Module) : Prop where
  imports : moved.contents? .imports =
    some (m.importEntries ++ [gasImport config (gasTypeIndex m)])
  typeCount : moved.typeEntries.length.toUInt32 = gasTypeBound m

theorem extended_of_mapReferences {f : UInt32 → UInt32} {moved : Module}
    (h : (extend m config).mapReferences f = .ok moved) : Extended m config moved := by
  have keep := (Module.mapReferences_eq_ok h).untouched
  refine ⟨?_, ?_⟩
  · rw [keep _ (by decide), contents?_imports_extend]
  · have htypes : (extend m config).contents? .types =
        (reserveType (withAnchors m)).1.contents? .types :=
      Module.contents?_modify_of_ne (by decide) _
    rw [Module.typeEntries, keep _ (by decide), htypes]
    rfl

namespace Extended

variable {moved : Module}

theorem importEntries (h : Extended m config moved) :
    moved.importEntries = m.importEntries ++ [gasImport config (gasTypeIndex m)] := by
  rw [Module.importEntries, h.imports, Option.getD_some]

/-- Only imports are renamed. -/
theorem contents?_rename {kind : SectionKind} (hkind : kind ≠ .imports) :
    (rename m config' moved).contents? kind = moved.contents? kind :=
  Module.contents?_modify_of_ne hkind _

/-- What is renamed is extended by the import under its new names. -/
theorem renamed (h : Extended m config moved) (config' : GasConfig) :
    Extended m config' (rename m config' moved) where
  imports := by rw [rename, Module.contents?_modify_self, h.imports, Option.map_some]
  typeCount := by rw [Module.typeEntries, contents?_rename (by decide)]; exact h.typeCount

theorem functionCount_rename (h : Extended m config moved) :
    (rename m config' moved).functionCount = moved.functionCount := by
  unfold Module.functionCount Module.importedCount Module.declarations
  rw [(h.renamed config').importEntries, h.importEntries, contents?_rename (by decide),
    List.countP_append, List.countP_append]
  rfl

/-- The bodies are read alike under either name of the import. -/
theorem readBodies_rename (h : Extended m config moved) (gasFunction : UInt32) :
    readBodies (rename m config' moved) gasFunction = readBodies moved gasFunction := by
  unfold readBodies Module.bodies
  rw [contents?_rename (by decide), h.functionCount_rename]

theorem functionReferences_rename :
    (rename m config' moved).functionReferences = moved.functionReferences := by
  unfold Module.functionReferences Module.exportEntries Module.elementSegments
    Module.globalEntries
  rw [contents?_rename (by decide), contents?_rename (by decide), contents?_rename (by decide),
    contents?_rename (by decide)]

/-- Under any name the import passes the check, as long as its type resolves. -/
theorem checkModule_rename (h : Extended m config moved) (hlt : gasTypeIndex m < gasTypeBound m) :
    checkModule (rename m config' moved) = checkModule moved := by
  have hrenamed := h.renamed config'
  have hdeclarations : (rename m config' moved).declarations = moved.declarations := by
    rw [Module.declarations, contents?_rename (by decide)]
  unfold checkModule
  rw [typeReferences_of_import h.importEntries, typeReferences_of_import hrenamed.importEntries,
    functionReferences_rename, h.functionCount_rename, hdeclarations, h.typeCount,
    hrenamed.typeCount, checkReferences_append_cons hlt, checkReferences_append_cons hlt]

/-- If its type does not resolve, the import is at fault unless one in front of it is. -/
theorem checkModule_of_le (h : Extended m config moved) (hle : gasTypeBound m ≤ gasTypeIndex m) :
    checkModule moved = (do
      checkReferences .types (gasTypeBound m) (importReferences m)
      .error (unresolvedImport m config)) := by
  unfold checkModule
  rw [typeReferences_of_import h.importEntries, h.typeCount, checkReferences_append_cons_of_le hle,
    bind_assoc]
  rfl

end Extended

/-- Under another configuration it is the module with the import renamed that is settled. -/
theorem settle_eq_rename (m : Module) (config config' : GasConfig) :
    settle m config' = (do
      let moved ← (extend m config).mapReferences (shift · m.insertionPoint 1)
      settleMoved m (rename m config' moved)) := by
  unfold settle
  rw [extend_rename m config config', rename, Module.mapReferences_modify_imports, bind_map_left]
  rfl

/-- What is settled under one configuration is settled under every other, with the import renamed. -/
theorem settle_rename (hlt : gasTypeIndex m < gasTypeBound m) (config config' : GasConfig) :
    settle m config' = (fun settled => (rename m config' settled.1, settled.2)) <$>
      settle m config := by
  rw [settle_eq_rename m config config', settle]
  cases hmoved : (extend m config).mapReferences (shift · m.insertionPoint 1) with
  | error e => rfl
  | ok moved =>
      have hextended := extended_of_mapReferences hmoved
      show settleMoved m (rename m config' moved) = _ <$> settleMoved m moved
      unfold settleMoved
      rw [hextended.readBodies_rename, map_bind]
      refine bind_congr fun read => ?_
      rw [hextended.checkModule_rename hlt, map_bind]
      rfl

theorem extended_of_settle {moved : Module} {read : List (FunctionBody × Disassembly)}
    (h : settle m config = .ok (moved, read)) :
    Extended m config moved ∧ moved.contents? .code = m.contents? .code := by
  obtain ⟨moved, hmoved, h⟩ := ok_of_bind_iff.1 h
  obtain ⟨read, -, h⟩ := ok_of_bind_iff.1 h
  obtain ⟨⟨⟩, -, h⟩ := ok_of_bind_iff.1 h
  cases ok_of_pure_iff.1 h
  obtain ⟨-, _, _, -, -, -, keep⟩ := contents?_extend m config
  refine ⟨extended_of_mapReferences hmoved, ?_⟩
  rw [(Module.mapReferences_eq_ok hmoved).untouched _ (by decide), keep _ (by decide) (by decide)]

/-- If the type of the import does not resolve, nothing is settled, and only an error about the import
differs. -/
theorem exists_settle_eq_error (hle : gasTypeBound m ≤ gasTypeIndex m) (config config' : GasConfig) :
    ∃ e e', settle m config = .error e ∧ settle m config' = .error e' ∧
      (e' = e ∨ e = unresolvedImport m config ∧ e' = unresolvedImport m config') := by
  rw [settle_eq_rename m config config', settle]
  cases hmoved : (extend m config).mapReferences (shift · m.insertionPoint 1) with
  | error e => exact ⟨e, e, rfl, rfl, .inl rfl⟩
  | ok moved =>
      have hextended := extended_of_mapReferences hmoved
      show ∃ e e', settleMoved m moved = .error e ∧
        settleMoved m (rename m config' moved) = .error e' ∧ _
      unfold settleMoved
      rw [hextended.readBodies_rename, hextended.checkModule_of_le hle,
        (hextended.renamed config').checkModule_of_le hle]
      cases readBodies moved m.insertionPoint with
      | error e => exact ⟨e, e, rfl, rfl, .inl rfl⟩
      | ok read =>
          cases checkReferences .types (gasTypeBound m) (importReferences m) with
          | error e => exact ⟨e, e, rfl, rfl, .inl rfl⟩
          | ok _ => exact ⟨_, _, rfl, rfl, .inr ⟨rfl, rfl⟩⟩

end Metering

/-! ### Two configurations -/

/-- The bodies are the same but for the constant that they pay first: each is what its cost model makes
of the same instructions. -/
structure FunctionBody.ChargedAlike (costs costs' : CostModel) (body body' : FunctionBody) : Prop where
  locals : body'.locals = body.locals
  codeOffset : body'.codeOffset = body.codeOffset
  code : ∃ instructions rest : List Instruction,
    body.code = Disassembly.assemble ⟨.i32Const (costs.charge instructions) :: rest⟩ ∧
      body'.code = Disassembly.assemble ⟨.i32Const (costs'.charge instructions) :: rest⟩

/-- The results of metering a module under two configurations are the same module except for the names
of the import that was added last and the constants that bodies pay. -/
structure Metered.ConfiguredAlike (m : Module) (config config' : GasConfig) (costs costs' : CostModel)
    (result result' : Metered) : Prop where
  gasFunction : result'.gasFunction = result.gasFunction
  modules : ∃ typeIndex bodies bodies',
    result.module.contents? .imports = some (m.importEntries ++ [gasImport config typeIndex]) ∧
      result.module.contents? .code = some bodies ∧
      List.Forall₂ (FunctionBody.ChargedAlike costs costs') bodies bodies' ∧
      result'.module = (result.module.modify .imports fun _ =>
        m.importEntries ++ [gasImport config' typeIndex]).modify .code fun _ => bodies'
  others : ∀ (i : Nat) (s : Section), result.module.sections[i]? = some s → s.kind ≠ .imports →
    s.kind ≠ .code → result'.module.sections[i]? = some s

namespace Metering

variable {m : Module} {config : GasConfig}

theorem forall₂_chargeBody (costs costs' : CostModel) (gasFunction : UInt32)
    (read : List (FunctionBody × Disassembly)) :
    List.Forall₂ (FunctionBody.ChargedAlike costs costs') (read.map (chargeBody costs gasFunction))
      (read.map (chargeBody costs' gasFunction)) := by
  rw [List.forall₂_map_left_iff, List.forall₂_map_right_iff, List.forall₂_same]
  exact fun r _ => ⟨rfl, rfl, r.2.instructions, _, rfl, rfl⟩

/-- A section of another kind is not touched by a change of contents. -/
theorem getElem?_sections_modify_of_kind {kind : SectionKind} {i : Nat} {s : Section}
    (hs : m.sections[i]? = some s) (hkind : s.kind ≠ kind)
    (change : kind.Contents → kind.Contents) :
    (m.modify kind change).sections[i]? = some s := by
  rw [Module.getElem?_sections_modify, hs, if_neg]
  intro hposition
  obtain ⟨s', hs', hkind'⟩ := Module.exists_of_position? hposition
  cases hs.symm.trans hs'
  exact hkind hkind'

theorem configuredAlike_finish {moved : Module} {bodies : List FunctionBody}
    (h : Extended m config moved) (hcode : moved.contents? .code = some bodies)
    (config' : GasConfig) (costs costs' : CostModel) (read : List (FunctionBody × Disassembly)) :
    Metered.ConfiguredAlike m config config' costs costs' (finish m costs (moved, read))
      (finish m costs' (rename m config' moved, read)) := by
  let charged := read.map (chargeBody costs m.insertionPoint)
  let charged' := read.map (chargeBody costs' m.insertionPoint)
  have hmodules : (rename m config' moved).modify .code (fun _ => charged') =
      ((moved.modify .code fun _ => charged).modify .imports fun _ =>
        m.importEntries ++ [gasImport config' (gasTypeIndex m)]).modify .code fun _ => charged' := by
    have hswap : ((moved.modify .code fun _ => charged).modify .imports fun _ =>
          m.importEntries ++ [gasImport config' (gasTypeIndex m)]) =
        (rename m config' moved).modify .code fun _ => charged :=
      Module.modify_modify_of_ne (by decide) _ _
    rw [hswap, Module.modify_modify_self]
    rfl
  refine ⟨rfl, ⟨gasTypeIndex m, charged, charged', ?_, ?_, forall₂_chargeBody _ _ _ _, hmodules⟩, ?_⟩
  · exact (Module.contents?_modify_of_ne (by decide) _).trans h.imports
  · exact (Module.contents?_modify_self _).trans (by rw [hcode, Option.map_some])
  · intro i s hs himports hkind
    show ((rename m config' moved).modify .code fun _ => charged').sections[i]? = some s
    rw [hmodules]
    exact getElem?_sections_modify_of_kind (getElem?_sections_modify_of_kind hs himports _) hkind _

end Metering

/-- Two configurations and any two cost models refuse the same modules, with the same error, unless
there are more types than 32 bits count: only then can the error be about the new import and name it.
If the module is not refused, the new function has the same index, and the results are the same module
except for the names of the one import that was added and the constant that each body pays first. So
no other section differs. -/
theorem Module.meter_reconfigured (m : Module) (config config' : GasConfig)
    (costs costs' : CostModel) :
    (∃ e e', m.meter config costs = .error e ∧ m.meter config' costs' = .error e' ∧
        (e' = e ∨ 2 ^ 32 ≤ m.typeEntries.length + 1 ∧
          e = unresolvedImport m config ∧ e' = unresolvedImport m config')) ∨
      ∃ result result', m.meter config costs = .ok result ∧ m.meter config' costs' = .ok result' ∧
        Metered.ConfiguredAlike m config config' costs costs' result result' := by
  cases hcode : m.contents? .code with
  | none =>
      have hmeter (config : GasConfig) (costs : CostModel) :
          m.meter config costs = .error .noCodeSection := by
        unfold meter
        rw [hcode]
        rfl
      exact .inl ⟨_, _, hmeter config costs, hmeter config' costs', .inl rfl⟩
  | some bodies =>
      by_cases hlength : m.declarations.length = bodies.length
      · rw [meter_eq_finish hcode hlength, meter_eq_finish hcode hlength]
        by_cases hlt : gasTypeIndex m < gasTypeBound m
        · rw [settle_rename hlt config config']
          cases hsettle : settle m config with
          | error e => exact .inl ⟨e, e, rfl, rfl, .inl rfl⟩
          | ok settled =>
              obtain ⟨hextended, hmovedCode⟩ := extended_of_settle hsettle
              exact .inr ⟨_, _, rfl, rfl, configuredAlike_finish hextended
                (hmovedCode.trans hcode) config' costs costs' settled.2⟩
        · have hcount : 2 ^ 32 ≤ m.typeEntries.length + 1 := by
            by_contra h
            exact hlt (gasTypeIndex_lt (Nat.not_le.1 h))
          obtain ⟨e, e', he, he', hsame⟩ :=
            exists_settle_eq_error (UInt32.not_lt.1 hlt) config config'
          rw [he, he']
          exact .inl ⟨e, e', rfl, rfl, hsame.imp_right (⟨hcount, ·⟩)⟩
      · have hmeter (config : GasConfig) (costs : CostModel) : m.meter config costs =
            .error (.functionCountMismatch m.declarations.length bodies.length) := by
          unfold meter
          simp only [hcode, ne_eq, hlength, not_false_eq_true, if_true]
          rfl
        exact .inl ⟨_, _, hmeter config costs, hmeter config' costs', .inl rfl⟩

end WasmMeter
