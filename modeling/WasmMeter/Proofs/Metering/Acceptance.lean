import WasmMeter.Proofs.Metering.References
import WasmMeter.Proofs.Metering.Rereading
import WasmMeter.Proofs.Module.Alike

/-!
Which modules are metered. If every reference to a function resolves in an intact module, and there
is a body for each declaration, then nothing is left to check but the uses of types; and if these
resolve too, metering succeeds. For a module that was read and has no more functions than there are
indices, this is all that metering asks for. What it makes resolves again, before and after it is
written and read.
-/
namespace WasmMeter

open Metering

/-- There is a body for each declaration, and every index of a type or a function resolves. -/
structure Module.Resolved (m : Module) : Prop where
  bodies : ∃ bodies, m.contents? .code = some bodies ∧ m.declarations.length = bodies.length
  types : ∀ r ∈ m.typeReferences, r.2.toNat < m.typeEntries.length
  functions : ∃ sites, m.referenceSites = .ok sites ∧
    ∀ r ∈ sites, r.2.toNat < m.functionSpace.length

/-- There is a body for each declaration, and every reference to a function resolves. -/
structure Module.Linked (m : Module) : Prop where
  bodies : ∃ bodies, m.contents? .code = some bodies ∧ m.declarations.length = bodies.length
  functions : ∃ sites, m.referenceSites = .ok sites ∧
    ∀ r ∈ sites, r.2.toNat < m.functionSpace.length

theorem Module.Resolved.linked {m : Module} (h : m.Resolved) : m.Linked := ⟨h.bodies, h.functions⟩

variable {m other : Module} {config : GasConfig} {costs : CostModel} {result : Metered}
  {found : List (ReferenceSite × UInt32)} {gasFunction functions : UInt32}

namespace Metering

/-! ### Bodies -/

/-- A body is metered once it disassembles and every function it names stays, moved past the gas
function, below the limit. -/
theorem exists_meterBody {body : FunctionBody} {number : Nat}
    (hsites : body.sites number = .ok found)
    (h : ∀ r ∈ found, shift r.2 gasFunction 1 < functions) (costs : CostModel) (site : Site) :
    ∃ metered, meterBody costs gasFunction functions site body = .ok metered := by
  obtain ⟨d, hd, hfound⟩ := ok_of_bind_iff.1 hsites
  obtain rfl := ok_of_pure_iff.1 hfound
  have hcheck : checkReferences .functions functions
      ((d.mapReferences (shift · gasFunction 1)).references.map (site, ·)) = .ok () := by
    rw [checkReferences_eq_ok_iff, Disassembly.references_mapReferences, Disassembly.references,
      ← map_snd_sitesOf (.body number), List.map_map, List.map_map]
    intro r hr
    obtain ⟨reference, hreference, rfl⟩ := List.mem_map.1 hr
    exact h reference hreference
  exact ⟨_, ok_of_bind_iff.2 ⟨d, hd, ok_of_bind_iff.2 ⟨(), hcheck, rfl⟩⟩⟩

theorem exists_meterBodies {bodies : List FunctionBody} (hcode : m.contents? .code = some bodies)
    (hsites : collect FunctionBody.sites bodies = .ok found)
    (h : ∀ r ∈ found, shift r.2 gasFunction 1 < m.functionCount) (costs : CostModel) :
    ∃ other, meterBodies m costs gasFunction = .ok other := by
  obtain ⟨metered, hmetered⟩ := exists_mapM_of_collect
    (f := fun entry => meterBody costs gasFunction m.functionCount (.body entry.2) entry.1)
    hsites h fun number _ _ hbody hbelow => exists_meterBody hbody hbelow costs (.body number)
  refine ⟨m.modify .code fun _ => metered, ?_⟩
  unfold meterBodies
  rw [hcode]
  refine ok_of_bind_iff.2 ⟨metered, ?_, rfl⟩
  rw [Module.sites, List.mapM_map]
  exact hmetered

/-! ### Types and functions -/

namespace Rewritten

theorem length_typeEntries (h : Rewritten m config costs other) :
    m.typeEntries.length ≤ other.typeEntries.length ∧
      other.typeEntries.length ≤ m.typeEntries.length + 1 := by
  obtain ⟨position, hreserves, -⟩ := h.entries
  exact hreserves.length_le

/-- The import of the gas function is the only entry the function index space gains. -/
theorem length_functionSpace (h : Rewritten m config costs other) :
    other.functionSpace.length = m.functionSpace.length + 1 := by
  obtain ⟨typeIndex, himports⟩ := h.importEntries
  exact Module.length_functionSpace_of_import himports h.declarations

/-- The new import has the only new reference to a type. -/
theorem typeReferences (h : Rewritten m config costs other) :
    ∃ position site before after, Reserves gasType m.typeEntries other.typeEntries position ∧
      m.typeReferences = before ++ after ∧
      other.typeReferences = before ++ (site, position.toUInt32) :: after := by
  obtain ⟨position, hreserves, hentries⟩ := h.entries
  refine ⟨position, .importEntry config.moduleName config.fieldName, _, _, hreserves, rfl, ?_⟩
  rw [typeReferences_of_import hentries, h.declarations]

theorem checkTypes (h : Rewritten m config costs other)
    (htypes : m.typeEntries.length + 1 < 2 ^ 32)
    (hm : ∀ r ∈ m.typeReferences, r.2.toNat < m.typeEntries.length) :
    checkReferences .types other.typeEntries.length.toUInt32 other.typeReferences = .ok () := by
  have hle := h.length_typeEntries
  obtain ⟨position, site, before, after, hreserves, hbefore, hafter⟩ := h.typeReferences
  have hposition := hreserves.lt_length
  have hindex : position.toUInt32.toNat = position :=
    UInt32.toNat_ofNat_of_lt' (show position < 2 ^ 32 by omega)
  rw [checkReferences_eq_ok_iff, hafter, List.forall_mem_append, List.forall_mem_cons]
  rw [hbefore, List.forall_mem_append] at hm
  have hlt {index : UInt32} (hindex : index.toNat < other.typeEntries.length) :
      index < other.typeEntries.length.toUInt32 := by
    rwa [UInt32.lt_iff_toNat_lt,
      UInt32.toNat_ofNat_of_lt' (show other.typeEntries.length < 2 ^ 32 by omega)]
  have hold : ∀ {index : UInt32}, index.toNat < m.typeEntries.length →
      index < other.typeEntries.length.toUInt32 := fun h => hlt (Nat.lt_of_lt_of_le h hle.1)
  exact ⟨fun r hr => hold (hm.1 r hr), hlt (by rwa [hindex]), fun r hr => hold (hm.2 r hr)⟩

theorem checkFunctions (h : Rewritten m config costs other) (hlinked : m.Linked)
    (hfunctions : m.functionSpace.length + 1 < 2 ^ 32) :
    ∃ references, other.functionReferences = .ok references ∧
      checkReferences .functions other.functionCount references = .ok () := by
  have hlength := h.length_functionSpace
  have hcount := Module.toNat_functionCount (m := other) (by omega)
  obtain ⟨_, hsites, hbelow⟩ := hlinked.functions
  obtain ⟨outside, inside, houtside, -, rfl⟩ := Module.referenceSites_eq_ok_iff.1 hsites
  obtain ⟨found, hfound, hmoved⟩ := h.sitesOutsideCode
  cases houtside.symm.trans hfound
  obtain ⟨references, hreferences, hvalues⟩ := Module.functionReferences_of_sites hmoved
  have hvalue : ∀ value ∈ references.map (·.2), value < other.functionCount := by
    rw [hvalues, List.map_map]
    refine List.forall_mem_map.2 fun r hr => ?_
    have hold := hbelow r (List.mem_append_left _ hr)
    exact shift_lt (by omega) _
  exact ⟨references, hreferences, checkReferences_eq_ok_iff.2 (List.forall_mem_map.1 hvalue)⟩

end Rewritten

end Metering

/-! ### Acceptance -/

/-- What the references are replaced in has one function more, and its code is as before. -/
theorem Metering.length_functionSpace_of_mapReferences {f : UInt32 → UInt32} {moved : Module}
    (h : (extend m config).mapReferences f = .ok moved) :
    moved.functionSpace.length = m.functionSpace.length + 1 ∧
      moved.contents? .code = m.contents? .code := by
  obtain ⟨-, types, position, -, -, himports, keep⟩ := contents?_extend m config
  have keepMoved := (Module.mapReferences_eq_ok h).untouched
  have hentries : moved.importEntries =
      m.importEntries ++ [gasImport config position.toUInt32] := by
    rw [Module.importEntries, keepMoved _ (by decide), himports, Option.getD_some]
  have hdeclarations : moved.declarations = m.declarations := by
    rw [Module.declarations, keepMoved _ (by decide), keep _ (by decide) (by decide)]
  refine ⟨Module.length_functionSpace_of_import hentries hdeclarations, ?_⟩
  rw [keepMoved _ (by decide), keep _ (by decide) (by decide)]

/-- In an intact module in which every reference to a function resolves, everything is rewritten,
and what is left to check is the uses of types. -/
theorem Module.Intact.exists_rewritten (h : m.Intact) (hlinked : m.Linked)
    (hfunctions : m.functionSpace.length + 1 < 2 ^ 32) (config : GasConfig) (costs : CostModel) :
    ∃ other, Rewritten m config costs other ∧ m.meter config costs = do
      checkReferences .types other.typeEntries.length.toUInt32 other.typeReferences
      return ⟨other, m.insertionPoint⟩ := by
  obtain ⟨bodies, hcode, hlength⟩ := hlinked.bodies
  obtain ⟨_, hsites, hbelow⟩ := hlinked.functions
  obtain ⟨outside, inside, -, hinside, rfl⟩ := referenceSites_eq_ok_iff.1 hsites
  rw [Module.bodies, hcode, Option.getD_some] at hinside
  obtain ⟨moved, hmoved, -⟩ :=
    (intact_extend h config).exists_mapReferences (shift · m.insertionPoint 1)
  obtain ⟨hspace, hmovedCode⟩ := length_functionSpace_of_mapReferences hmoved
  have hcount := Module.toNat_functionCount (m := moved) (by omega)
  have hresolve : ∀ r ∈ inside, shift r.2 m.insertionPoint 1 < moved.functionCount := by
    intro r hr
    have hold := hbelow r (List.mem_append_right _ hr)
    exact shift_lt (by omega) _
  obtain ⟨other, hmetered⟩ :=
    exists_meterBodies (hmovedCode.trans hcode) hinside hresolve costs
  have hrewritten := rewritten_of_meterBodies hmoved hmetered
  obtain ⟨references, hreferences, hchecked⟩ := hrewritten.checkFunctions hlinked hfunctions
  refine ⟨other, hrewritten, ?_⟩
  have hcheck : checkModule other =
      checkReferences .types other.typeEntries.length.toUInt32 other.typeReferences := by
    rw [checkModule, hreferences]
    show (do checkReferences _ _ _; checkReferences .functions other.functionCount references) = _
    rw [hchecked]
    exact bind_pure _
  rw [meter_eq hcode hlength, hmoved]
  show (do let metered ← meterBodies moved costs m.insertionPoint; _) = _
  rw [hmetered, ← hcheck]
  rfl

/-- An intact module in which every index resolves is metered. -/
theorem Module.Intact.exists_meter (h : m.Intact) (hresolved : m.Resolved)
    (hfunctions : m.functionSpace.length + 1 < 2 ^ 32)
    (htypes : m.typeEntries.length + 1 < 2 ^ 32) (config : GasConfig) (costs : CostModel) :
    ∃ result, m.meter config costs = .ok result := by
  obtain ⟨other, hrewritten, hmeter⟩ :=
    h.exists_rewritten hresolved.linked hfunctions config costs
  rw [hmeter, hrewritten.checkTypes htypes hresolved.types]
  exact ⟨_, rfl⟩

/-- In what metering leaves behind, every index resolves. -/
theorem Module.resolved_of_meter (h : m.meter config costs = .ok result)
    (hcount : m.functionSpace.length + 1 < 2 ^ 32) : result.module.Resolved := by
  have hout := outcome_of_meter h
  obtain ⟨⟨bodies, hcode, hlength⟩, -⟩ := meter_eq_ok_iff.1 h
  have hspace := hout.length_functionSpace
  refine ⟨?_, fun r hr => ?_, ?_⟩
  · obtain ⟨before, after, hbefore, hafter, hall⟩ := hout.code
    cases hcode.symm.trans hbefore
    exact ⟨after, hafter, by rw [hout.declarations, hlength, hall.length_eq]⟩
  · have hlt := UInt32.lt_iff_toNat_lt.1 ((checkModule_eq_ok_iff.1 hout.checked).1 r hr)
    rw [UInt32.toNat_ofNat'] at hlt
    exact Nat.lt_of_lt_of_le hlt (Nat.mod_le _ _)
  · obtain ⟨sites, sites', -, hsites', hothers, hpayers, hbelow⟩ := hout.referenceSites
    refine ⟨sites', hsites', fun r hr => ?_⟩
    cases hpays : r.1.isPrologue with
    | true =>
        have hmem : r ∈ sites'.filter (·.1.isPrologue = true) :=
          List.mem_filter.2 ⟨hr, decide_eq_true hpays⟩
        rw [hpayers] at hmem
        obtain ⟨number, -, rfl⟩ := List.mem_map.1 hmem
        have hle := m.toNat_insertionPoint_le
        show m.insertionPoint.toNat < _
        omega
    | false =>
        have hmem : r ∈ sites'.filter (·.1.isPrologue = false) :=
          List.mem_filter.2 ⟨hr, decide_eq_true hpays⟩
        rw [hothers] at hmem
        obtain ⟨before, hbefore, rfl⟩ := List.mem_map.1 hmem
        exact (hout.resolves (by omega) (hbelow before hbefore)).2.1

/-- Writing and reading do not change what resolves. -/
theorem Module.Alike.resolved (h : m.Alike other) (hm : m.Resolved) : other.Resolved := by
  refine ⟨?_, ?_, ?_⟩
  · obtain ⟨bodies, hcode, hlength⟩ := hm.bodies
    have hcleared := h.code
    rw [hcode, Option.map_some] at hcleared
    obtain ⟨others, hothers, hsame⟩ := Option.map_eq_some_iff.1 hcleared
    have hequal := congrArg List.length hsame
    rw [List.length_map, List.length_map] at hequal
    exact ⟨others, hothers, by rw [h.declarations, hlength, hequal]⟩
  · rw [typeReferences, h.importEntries, h.declarations, h.typeEntries]
    exact hm.types
  · obtain ⟨sites, hsites, hbelow⟩ := hm.functions
    refine ⟨sites, h.referenceSites hsites, ?_⟩
    rw [h.functionSpace]
    exact hbelow

/-- There are fewer types than bytes in the section that they were read from. -/
theorem Module.length_typeEntries_of_ofBytes {input : List UInt8}
    (h : Module.ofBytes input = .ok m) : m.typeEntries.length + 1 < 2 ^ 32 := by
  cases hc : m.contents? .types with
  | none => rw [typeEntries, hc]; decide
  | some entries =>
      have hlength := length_contentsBytes_of_ofBytes h hc
      have hlt : entries.length < (Bytes.vector FunctionType.toBytes entries).length :=
        Bytes.length_items_lt fun _ _ => List.cons_ne_nil _ _
      rw [typeEntries, hc, Option.getD_some]
      exact Nat.lt_of_le_of_lt hlt hlength

/-- A module that was read, with a body for each declaration, has fewer functions than there are
indices: imports and bodies take two bytes at least, in two sections whose lengths have 32 bits. -/
theorem Module.length_functionSpace_of_ofBytes {input : List UInt8}
    (h : Module.ofBytes input = .ok m) {bodies : List FunctionBody}
    (hcode : m.contents? .code = some bodies) (hlength : m.declarations.length = bodies.length) :
    m.functionSpace.length < 2 ^ 32 - 1 := by
  have himported : m.importedCount .function ≤ m.importEntries.length := List.countP_le_length
  have himports := length_importEntries_of_ofBytes h
  have hbodies : bodies.length * 2 < (Bytes.vector FunctionBody.toBytes bodies).length :=
    Bytes.mul_length_lt_length_vector fun body _ => body.two_le_length_toBytes
  have hbytes : (Bytes.vector FunctionBody.toBytes bodies).length < 2 ^ 32 :=
    length_contentsBytes_of_ofBytes h hcode
  rw [length_functionSpace, hlength]
  omega

/-! ### The exact condition -/

theorem FunctionBody.exists_sites_iff (number : Nat) (body : FunctionBody) :
    (∃ found, body.sites number = .ok found) ↔ ∃ d, Disassembly.ofBytes body.code = .ok d := by
  constructor
  · rintro ⟨found, hfound⟩
    obtain ⟨d, hd, -⟩ := ok_of_bind_iff.1 hfound
    exact ⟨d, Disassembly.ofBytesAt_eq_ok_iff_ofBytes.1 hd⟩
  · rintro ⟨d, hd⟩
    exact ⟨_, ok_of_bind_iff.2 ⟨d, Disassembly.ofBytesAt_eq_ok_iff_ofBytes.2 hd, rfl⟩⟩

/-- Outside the code of an intact module, every reference can be found. -/
theorem Module.Intact.exists_sitesOutsideCode (h : m.Intact) :
    ∃ found, m.sitesOutsideCode = .ok found := by
  obtain ⟨other, hother, -⟩ := h.exists_mapReferences id
  have hreplaced := mapReferences_eq_ok hother
  obtain ⟨found, hfound, -⟩ := sitesOutsideCode_of_replaced hreplaced.exports hreplaced.start
    hreplaced.elements hreplaced.globals
  exact ⟨found, hfound⟩

theorem Module.Intact.exists_referenceSites_iff (h : m.Intact) :
    (∃ sites, m.referenceSites = .ok sites) ↔
      ∀ body ∈ m.bodies, ∃ d, Disassembly.ofBytes body.code = .ok d := by
  rw [← exists_collect_iff FunctionBody.exists_sites_iff]
  constructor
  · rintro ⟨sites, hsites⟩
    obtain ⟨-, inside, -, hinside, -⟩ := referenceSites_eq_ok_iff.1 hsites
    exact ⟨inside, hinside⟩
  · rintro ⟨inside, hinside⟩
    obtain ⟨outside, houtside⟩ := h.exists_sitesOutsideCode
    exact ⟨_, referenceSites_eq_ok_iff.2 ⟨outside, inside, houtside, hinside, rfl⟩⟩

/-- What was metered was linked before: no reference that is out of range before is in range after.
-/
theorem Module.linked_of_meter (h : m.meter config costs = .ok result)
    (hcount : m.functionSpace.length < 2 ^ 32 - 1) : m.Linked := by
  have hout := outcome_of_meter h
  obtain ⟨sites, -, hsites, -, -, -, hbelow⟩ := hout.referenceSites
  exact ⟨length_eq_of_meter h, sites, hsites, fun r hr => (hout.resolves hcount (hbelow r hr)).1⟩

/-- A module that was read, whose functions have types and are fewer than there are indices, is
metered exactly if there is code, with a body for each declaration, every body is a sequence of
instructions, and every reference to a function is below the number of functions that there are
before metering. The references can be told as soon as the bodies are sequences of instructions. -/
theorem Module.exists_meter_iff {input : List UInt8} (hread : Module.ofBytes input = .ok m)
    (hcount : m.functionSpace.length < 2 ^ 32 - 1)
    (htypes : ∀ ref ∈ m.functionSpace, ref.typeIndex.toNat < m.typeEntries.length) :
    ((∃ sites, m.referenceSites = .ok sites) ↔
        ∀ body ∈ m.bodies, ∃ d, Disassembly.ofBytes body.code = .ok d) ∧
      ∀ config costs, (∃ result, m.meter config costs = .ok result) ↔
        ∃ bodies, m.contents? .code = some bodies ∧ m.declarations.length = bodies.length ∧
          (∀ body ∈ bodies, ∃ d, Disassembly.ofBytes body.code = .ok d) ∧
          ∀ sites, m.referenceSites = .ok sites →
            ∀ r ∈ sites, r.2.toNat < m.functionSpace.length := by
  have hintact := intact_of_ofBytes hread
  have hsites := hintact.exists_referenceSites_iff
  refine ⟨hsites, fun config costs => ⟨?_, ?_⟩⟩
  · rintro ⟨result, hmeter⟩
    obtain ⟨⟨bodies, hcode, hlength⟩, sites, hfound, hbelow⟩ := linked_of_meter hmeter hcount
    have hbodies := hsites.1 ⟨sites, hfound⟩
    rw [Module.bodies, hcode, Option.getD_some] at hbodies
    refine ⟨bodies, hcode, hlength, hbodies, fun sites' hfound' => ?_⟩
    cases hfound.symm.trans hfound'
    exact hbelow
  · rintro ⟨bodies, hcode, hlength, hbodies, hbelow⟩
    have hall : ∀ body ∈ m.bodies, ∃ d, Disassembly.ofBytes body.code = .ok d := by
      rwa [Module.bodies, hcode, Option.getD_some]
    obtain ⟨sites, hfound⟩ := hsites.2 hall
    have hresolved : m.Resolved := ⟨⟨bodies, hcode, hlength⟩,
      forall_typeReferences (P := (·.toNat < m.typeEntries.length)).2 htypes,
      sites, hfound, hbelow sites hfound⟩
    exact hintact.exists_meter hresolved (by omega) (length_typeEntries_of_ofBytes hread) config
      costs

theorem Module.exists_meter_iff_sample :
    ∃ m, Module.ofBytes sample.toBytes = .ok m ∧ m.functionSpace.length < 2 ^ 32 - 1 ∧
      (∀ ref ∈ m.functionSpace, ref.typeIndex.toNat < m.typeEntries.length) ∧
      ((∃ sites, m.referenceSites = .ok sites) ↔
        ∀ body ∈ m.bodies, ∃ d, Disassembly.ofBytes body.code = .ok d) ∧
      ((∃ result, m.meter .standard (.constant 1) = .ok result) ↔
        ∃ bodies, m.contents? .code = some bodies ∧ m.declarations.length = bodies.length ∧
          (∀ body ∈ bodies, ∃ d, Disassembly.ofBytes body.code = .ok d) ∧
          ∀ sites, m.referenceSites = .ok sites →
            ∀ r ∈ sites, r.2.toNat < m.functionSpace.length) := by
  have hok : (do
      let m ← Module.ofBytes sample.toBytes
      return decide (m.functionSpace.length < 2 ^ 32 - 1 ∧
        ∀ ref ∈ m.functionSpace, ref.typeIndex.toNat < m.typeEntries.length) :
        Except Error Bool) = .ok true := by decide +kernel
  obtain ⟨m, hread, hok⟩ := ok_of_bind_iff.1 hok
  obtain ⟨hcount, htypes⟩ := of_decide_eq_true (ok_of_pure_iff.1 hok)
  obtain ⟨hsites, hmeter⟩ := exists_meter_iff hread hcount htypes
  exact ⟨m, hread, hcount, htypes, hsites, hmeter .standard (.constant 1)⟩

end WasmMeter
