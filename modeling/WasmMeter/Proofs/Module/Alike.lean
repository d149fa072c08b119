import WasmMeter.Proofs.Module.Contents
import WasmMeter.Proofs.Module.ReadBack
import WasmMeter.Proofs.Module.ReferenceSites

/-!
Modules that differ in the offsets of code only, as one that was built and the same one after it was
written and read. They have the same entries, the same code in their bodies, and the same references
to functions.
-/
namespace WasmMeter

/-- The body holds the same code and the same local variables. -/
def FunctionBody.Alike (body other : FunctionBody) : Prop :=
  other.locals = body.locals ∧ other.code = body.code

namespace Payload

variable {payload : Payload} {kind : SectionKind}

/-- Only the contents of a code section know of offsets. -/
theorem contents?_clearOffsets_of_ne (h : kind ≠ .code) :
    payload.clearOffsets.contents? kind = payload.contents? kind := by
  by_cases hk : payload.kind = .code
  · have hne : payload.kind ≠ kind := fun he => h (he ▸ hk)
    rw [contents?_eq_none hne, contents?_eq_none (by rwa [kind_clearOffsets])]
  · rw [clearOffsets, modify_of_ne hk]

theorem contents?_clearOffsets_code :
    payload.clearOffsets.contents? .code =
      (payload.contents? .code).map (·.map FunctionBody.clearOffset) := by
  obtain ⟨kind, contents⟩ := payload
  by_cases hk : kind = .code
  · subst hk
    rw [clearOffsets, modify_mk, contents?_mk, contents?_mk]
    rfl
  · have hne : (Payload.mk kind contents).kind ≠ .code := hk
    rw [contents?_eq_none hne, contents?_eq_none (by rwa [kind_clearOffsets])]
    rfl

end Payload

namespace Module

/-- The sections hold the same contents, up to the offsets of code. -/
def Alike (m other : Module) : Prop :=
  other.sections.map (·.payload.clearOffsets) = m.sections.map (·.payload.clearOffsets)

/-- What is read back is alike: the offsets of code are all that can differ. -/
theorem ReadBack.alike {m other : Module} {start : Nat}
    (h : ReadBack start m.sections other.sections) : m.Alike other :=
  h.map_clearOffsets

namespace Alike

variable {m other : Module}

/-- Apart from code, the contents of every kind are the same. -/
theorem contents?_eq (h : m.Alike other) {kind : SectionKind} (hk : kind ≠ .code) :
    other.contents? kind = m.contents? kind := by
  have hcleared (sections : List Section) :
      sections.filterMap (fun s => s.payload.contents? kind) =
        (sections.map (·.payload.clearOffsets)).filterMap (Payload.contents? kind) := by
    rw [List.filterMap_map]
    congr 1
    funext s
    exact (Payload.contents?_clearOffsets_of_ne hk).symm
  rw [contents?_eq_getLast?, contents?_eq_getLast?, hcleared, h, ← hcleared]

theorem typeEntries (h : m.Alike other) : other.typeEntries = m.typeEntries := by
  rw [Module.typeEntries, h.contents?_eq (by decide)]

theorem importEntries (h : m.Alike other) : other.importEntries = m.importEntries := by
  rw [Module.importEntries, h.contents?_eq (by decide)]

theorem declarations (h : m.Alike other) : other.declarations = m.declarations := by
  rw [Module.declarations, h.contents?_eq (by decide)]

/-- Imports and declarations are the same, and so is the function index space they make. -/
theorem functionSpace (h : m.Alike other) : other.functionSpace = m.functionSpace := by
  rw [Module.functionSpace, h.importEntries, h.declarations]
  rfl

theorem code (h : m.Alike other) :
    (other.contents? .code).map (·.map FunctionBody.clearOffset) =
      (m.contents? .code).map (·.map FunctionBody.clearOffset) := by
  have hcleared (sections : List Section) :
      (sections.filterMap fun s => s.payload.contents? .code).getLast?.map
          (·.map FunctionBody.clearOffset) =
        ((sections.map (·.payload.clearOffsets)).filterMap (Payload.contents? .code)).getLast? := by
    rw [← List.getLast?_map, List.map_filterMap, List.filterMap_map]
    congr 2
    funext s
    exact Payload.contents?_clearOffsets_code.symm
  rw [contents?_eq_getLast?, contents?_eq_getLast?, hcleared, h, ← hcleared]

/-- The bodies are the same one by one, except for where their code stands. -/
theorem bodies (h : m.Alike other) : List.Forall₂ FunctionBody.Alike m.bodies other.bodies := by
  have hcleared : other.bodies.map FunctionBody.clearOffset =
      m.bodies.map FunctionBody.clearOffset := by
    have hgetD (entries : Option (List FunctionBody)) :
        (entries.getD []).map FunctionBody.clearOffset =
          (entries.map (·.map FunctionBody.clearOffset)).getD [] := by
      cases entries <;> rfl
    rw [Module.bodies, Module.bodies, hgetD, hgetD]
    exact congrArg (·.getD []) h.code
  rw [← List.forall₂_eq_eq_eq, List.forall₂_map_left_iff, List.forall₂_map_right_iff] at hcleared
  exact hcleared.flip.imp fun body other hsame =>
    ⟨congrArg (·.locals) hsame, congrArg (·.code) hsame⟩

/-- The references outside code are the same, as none of them has an offset. -/
theorem sitesOutsideCode (h : m.Alike other) : other.sitesOutsideCode = m.sitesOutsideCode := by
  unfold Module.sitesOutsideCode exportSites startSites exportEntries elementSegments globalEntries
  rw [h.contents?_eq (by decide), h.contents?_eq (by decide), h.contents?_eq (by decide),
    h.contents?_eq (by decide)]

end Alike

end Module

/-- A body that disassembles names the same functions at the same sites wherever it stands. -/
theorem FunctionBody.Alike.sites {body other : FunctionBody} (h : body.Alike other) {number : Nat}
    {found : List (ReferenceSite × UInt32)} (hfound : body.sites number = .ok found) :
    other.sites number = .ok found := by
  obtain ⟨d, hd, hfound⟩ := ok_of_bind_iff.1 hfound
  refine ok_of_bind_iff.2 ⟨d, ?_, hfound⟩
  rw [h.2, Disassembly.ofBytesAt_eq_ok_iff]
  exact Disassembly.ofBytesAt_eq_ok_iff.1 hd

/-- References stay the same, at the same sites. -/
theorem Module.Alike.referenceSites {m other : Module} (h : m.Alike other)
    {found : List (ReferenceSite × UInt32)} (hfound : m.referenceSites = .ok found) :
    other.referenceSites = .ok found := by
  obtain ⟨outside, inside, houtside, hinside, rfl⟩ := referenceSites_eq_ok_iff.1 hfound
  exact referenceSites_eq_ok_iff.2 ⟨outside, inside, h.sitesOutsideCode.trans houtside,
    collect_of_forall₂_eq h.bodies (fun _ _ _ _ hbody => hbody.sites) hinside, rfl⟩

end WasmMeter
