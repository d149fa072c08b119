import WasmMeter.Proofs.Metering.Entries
import WasmMeter.Proofs.Metering.Rereading
import WasmMeter.Proofs.Module.Revision

/-!
What metering makes of the sections. A type section and an import section are put in where there are
none, and then every section stays in its place. A section is written anew only where its contents
change, and otherwise keeps the bytes it was read from; which contents change can be told from the
contents themselves.
-/
namespace WasmMeter

open Metering

variable {m : Module} {config : GasConfig} {costs : CostModel} {result : Metered} {point : UInt32}

/-! ### Contents -/

/-- What the contents of a section are once the module is metered. -/
def SectionKind.Becomes (config : GasConfig) (costs : CostModel) (point : UInt32) :
    (kind : SectionKind) → kind.Contents → kind.Contents → Prop
  | .types, entries, after => after = if gasType ∈ entries then entries else entries ++ [gasType]
  | .imports, entries, after => ∃ typeIndex, after = entries ++ [gasImport config typeIndex]
  | .exports, entries, after => List.Forall₂ (Export.Moved point) entries after
  | .start, function, after => after = shift function point 1
  | .elements, segments, after => List.Forall₂ (ElementSegment.Moved point) segments after
  | .globals, entries, after => List.Forall₂ (Global.Moved point) entries after
  | .code, bodies, after =>
      ∃ functions, List.Forall₂ (BodyMetered costs point functions) bodies after
  | _, contents, after => after = contents

/-- Metering leaves the contents alone: the signature of the metering import is there, or no
reference is to a function that moves. Imports and code always change. -/
def SectionKind.Settled (point : UInt32) : (kind : SectionKind) → kind.Contents → Prop
  | .types, entries => gasType ∈ entries
  | .imports, _ => False
  | .exports, entries => ∀ entry ∈ entries, entry.kind = .function → entry.index < point
  | .start, function => function < point
  | .elements, segments => ∀ segment ∈ segments, ForallOk (· < point) segment.references
  | .globals, entries => ∀ entry ∈ entries, ForallOk (· < point) entry.references
  | .code, _ => False
  | _, _ => True

/-- The contents after metering, of the same kind. -/
def Payload.Becomes (config : GasConfig) (costs : CostModel) (point : UInt32)
    (payload payload' : Payload) : Prop :=
  ∃ contents, payload' = ⟨payload.kind, contents⟩ ∧
    payload.kind.Becomes config costs point payload.contents contents

def Payload.Settled (point : UInt32) (payload : Payload) : Prop :=
  payload.kind.Settled point payload.contents

/-- The section after metering. It comes from the same bytes, and these are written as they are
exactly if metering leaves the contents alone. Code without bodies may come out the same by chance.
-/
structure Section.Becomes (config : GasConfig) (costs : CostModel) (point : UInt32)
    (s s' : Section) : Prop where
  payload : s.payload.Becomes config costs point s'.payload
  source : s'.source = s.source
  bounds : s'.bounds? = s.bounds?
  unchanged : s'.isChanged = false ↔ s.payload.Settled point
  verbatim : s.kind ≠ .code → (s'.toBytes = s.source ↔ s.payload.Settled point)

namespace Metering

/-- Every reference outside the code is in range once it has moved. -/
theorem Outcome.forallReferences (h : Outcome m config costs result) :
    m.ForallReferences (shift · m.insertionPoint 1 < result.module.functionCount) := by
  obtain ⟨found, hfound, hmoved⟩ := h.sitesOutsideCode
  exact Module.forallReferences_of_sites ⟨found, hfound, h.shift_lt_functionCount hmoved⟩

/-- The contents of a kind in the result, next to those that the module had once its type and import
sections were there. -/
theorem Outcome.metered_contents (h : Outcome m config costs result) {kind : SectionKind}
    (hcustom : kind ≠ .custom) {before after : kind.Contents}
    (hbefore : (withAnchors m).contents? kind = some before)
    (hafter : result.module.contents? kind = some after) :
    kind.Becomes config costs m.insertionPoint before after ∧
      (kind ≠ .code → (after = before ↔ kind.Settled m.insertionPoint before)) := by
  obtain ⟨htypes, himports, keep⟩ := contents?_withAnchors m
  have hall := h.forallReferences
  cases kind with
  | custom => exact absurd rfl hcustom
  | types =>
      cases htypes.symm.trans hbefore
      obtain ⟨types, position, hreserves, hentries, -⟩ := h.typesAndImports
      cases hentries.symm.trans hafter
      refine ⟨hreserves.eq_ite, fun _ => ?_⟩
      show _ ↔ gasType ∈ m.typeEntries
      rw [hreserves.eq_ite]
      by_cases hmem : gasType ∈ m.typeEntries <;> simp [hmem]
  | imports =>
      cases himports.symm.trans hbefore
      obtain ⟨types, position, -, -, hentries⟩ := h.typesAndImports
      cases hentries.symm.trans hafter
      exact ⟨⟨_, rfl⟩, fun _ => iff_of_false (by simp) not_false⟩
  | exports =>
      rw [keep _ (by decide) (by decide)] at hbefore
      have hexports := h.exports
      rw [hbefore, hafter, Option.map_some, Option.some.injEq] at hexports
      have hlt := hall.exports
      rw [Module.exportEntries, hbefore, Option.getD_some] at hlt
      subst hexports
      refine ⟨?_, fun _ => Export.map_mapReferences_eq_self_iff hlt⟩
      exact List.forall₂_map_right_iff.2 (List.forall₂_same.2 fun entry _ => entry.moved _)
  | start =>
      rw [keep _ (by decide) (by decide)] at hbefore
      have hstart := h.start
      rw [hbefore, hafter, Option.map_some, Option.some.injEq] at hstart
      exact ⟨hstart, fun _ => hstart ▸ shift_eq_self_iff (hall.start before hbefore)⟩
  | elements =>
      rw [keep _ (by decide) (by decide)] at hbefore
      have hsegments := forall₂_of_option_mapM h.elements
      have hlt := hall.elements
      rw [Module.elementSegments, hbefore, Option.getD_some] at hlt
      rw [hbefore, hafter] at hsegments
      exact (moved_of_mapReferences hsegments ElementSegment.moved
        ElementSegment.mapReferences_eq_self_iff hlt).imp_right fun h _ => h
  | globals =>
      rw [keep _ (by decide) (by decide)] at hbefore
      have hentries := forall₂_of_option_mapM h.globals
      have hlt := hall.globals
      rw [Module.globalEntries, hbefore, Option.getD_some] at hlt
      rw [hbefore, hafter] at hentries
      exact (moved_of_mapReferences hentries Global.moved
        Global.mapReferences_eq_self_iff hlt).imp_right fun h _ => h
  | code =>
      rw [keep _ (by decide) (by decide)] at hbefore
      obtain ⟨bodies, metered, hbodies, hmetered, hcode⟩ := h.code
      cases hbodies.symm.trans hbefore
      cases hmetered.symm.trans hafter
      exact ⟨⟨_, hcode⟩, fun hne => absurd rfl hne⟩
  | _ =>
      rw [keep _ (by decide) (by decide), ← h.untouched _ (by decide), hafter] at hbefore
      cases hbefore
      exact ⟨rfl, fun _ => iff_of_true rfl trivial⟩

/-! ### Changes -/

/-- The sections once there are a type section and an import section. -/
theorem sections_withAnchors (m : Module) :
    ∃ typed before types after,
      typed = (if .types ∈ m.kinds then m.sections else .build ⟨.types, []⟩ :: m.sections) ∧
        typed = before ++ types :: after ∧ types.kind = .types ∧
        (withAnchors m).sections =
          if .imports ∈ m.kinds then typed
          else before ++ types :: .build ⟨.imports, []⟩ :: after := by
  have htypes := (m.contents?_anchor .types 0 []).1
  unfold withAnchors
  dsimp only
  generalize htyped : (if (m.position? .types).isSome then m
    else m.insert 0 (.build ⟨.types, []⟩)) = typed at *
  have hsections : typed.sections =
      if .types ∈ m.kinds then m.sections else .build ⟨.types, []⟩ :: m.sections := by
    rw [← htyped]
    by_cases hmem : .types ∈ m.kinds
    · rw [if_pos hmem, if_pos (Module.isSome_position?_iff.2 hmem)]
    · rw [if_neg hmem, if_neg fun h => hmem (Module.isSome_position?_iff.1 h)]
      rfl
  have himports : .imports ∈ typed.kinds ↔ .imports ∈ m.kinds := by
    rw [Module.kinds, hsections]
    split
    · rfl
    · rw [List.map_cons, List.mem_cons]
      exact or_iff_right (by rintro ⟨⟩)
  obtain ⟨position, hposition⟩ : ∃ position, typed.position? .types = some position := by
    rw [← Option.isSome_iff_exists, Module.isSome_position?, htypes]
    rfl
  obtain ⟨types, hs, hkind⟩ := Module.exists_of_position? hposition
  have hsplit : typed.sections =
      typed.sections.take position ++ types :: typed.sections.drop (position + 1) := by
    obtain ⟨hlt, rfl⟩ := List.getElem?_eq_some_iff.1 hs
    rw [← List.drop_eq_getElem_cons hlt, List.take_append_drop]
  refine ⟨typed.sections, _, types, _, hsections, hsplit, hkind, ?_⟩
  rw [hposition]
  by_cases hmem : .imports ∈ m.kinds
  · rw [if_pos (Module.isSome_position?_iff.2 (himports.2 hmem)), if_pos hmem]
  · rw [if_neg fun h => hmem (himports.1 (Module.isSome_position?_iff.1 h)), if_neg hmem,
      Option.map_some, Option.getD_some, Module.insert, List.take_add_one, hs]
    simp

theorem mem_withAnchors {s : Section} (hs : s ∈ (withAnchors m).sections) :
    s ∈ m.sections ∨ s = .build ⟨.types, []⟩ ∨ s = .build ⟨.imports, []⟩ := by
  obtain ⟨typed, before, types, after, htyped, hsplit, -, hsections⟩ := sections_withAnchors m
  have hmem : s ∈ typed → s ∈ m.sections ∨ s = .build ⟨.types, []⟩ := by
    rw [htyped]
    split
    · exact .inl
    · exact fun h => (List.mem_cons.1 h).symm
  rw [hsections] at hs
  split at hs
  · exact (hmem hs).imp_right .inl
  · rw [hsplit] at hmem
    rcases List.mem_append.1 hs with hs | hs
    · exact (hmem (List.mem_append_left _ hs)).imp_right .inl
    · rcases List.mem_cons.1 hs with rfl | hs
      · exact (hmem (List.mem_append_right _ List.mem_cons_self)).imp_right .inl
      · rcases List.mem_cons.1 hs with rfl | hs
        · exact .inr (.inr rfl)
        · exact (hmem (List.mem_append_right _ (List.mem_cons_of_mem _ hs))).imp_right .inl

theorem revised_reserveType (m : Module) : m.Revised [.types] (reserveType m).1 := by
  unfold reserveType
  dsimp only
  split
  · exact .refl _ _
  · exact Module.revised_modify fun entries _ => by simp

theorem revised_addImport (m : Module) (config : GasConfig) (typeIndex : UInt32) :
    m.Revised [.imports] (addImport m config typeIndex) :=
  Module.revised_modify fun entries _ => by simp

theorem revised_extend (m : Module) (config : GasConfig) :
    (withAnchors m).Revised [.types, .imports] (extend m config) :=
  (revised_reserveType _).trans (revised_addImport _ config _) (by decide)

/-- The code is given new contents, and other sections stay. -/
theorem forall₂_meterBodies {other : Module} {gasFunction : UInt32} (hordered : m.Ordered)
    (h : meterBodies m costs gasFunction = .ok other) :
    List.Forall₂ (fun s s' => if s.kind = .code then
        ∃ payload : Payload, payload.kind = .code ∧ s' = s.setPayload payload
      else s' = s) m.sections other.sections := by
  obtain ⟨bodies, metered, -, -, rfl⟩ := exists_modify_of_meterBodies h
  have hkind {i : Nat} {s : Section} (hs : m.sections[i]? = some s) :
      m.position? .code = some i ↔ s.kind = .code := by
    rw [hordered.position?_eq_some_iff (by decide), Module.kinds, List.getElem?_map, hs,
      Option.map_some, Option.some.injEq]
  refine Module.forall₂_sections_modify (fun i s hs hne => ?_) fun i s hs heq => ?_
  · rw [if_neg fun h => hne ((hkind hs).2 h)]
  · rw [if_pos ((hkind hs).1 heq)]
    exact ⟨_, (Payload.kind_modify _ _ _).trans ((hkind hs).1 heq), rfl⟩

/-- The code counts as changed whatever it holds; any other section only if its contents are others.
-/
def Reworked (s s' : Section) : Prop :=
  if s.kind = .code then ∃ payload : Payload, payload.kind = .code ∧ s' = s.setPayload payload
  else s.Revised [.types, .imports, .exports, .start, .elements, .globals] s'

theorem reworked_of_meter (hintact : m.Intact) (h : m.meter config costs = .ok result) :
    List.Forall₂ Reworked (withAnchors m).sections result.module.sections := by
  obtain ⟨-, ⟨moved, hmoved, hmetered⟩, -⟩ := meter_eq_ok_iff.1 h
  obtain ⟨_, hreplaced, hmovedIntact⟩ :=
    (intact_extend hintact config).exists_mapReferences (shift · m.insertionPoint 1)
  cases hreplaced.symm.trans hmoved
  have hrevised := (revised_extend m config).trans (Module.revised_mapReferences hmoved) (by decide)
  refine forall₂_trans hrevised (forall₂_meterBodies hmovedIntact.ordered hmetered)
    fun s between s' hs hs' => ?_
  rw [hs.kind_eq] at hs'
  unfold Reworked
  split
  · next hkind =>
    rw [if_pos hkind] at hs'
    obtain rfl := hs.eq_of_notMem (hkind ▸ by decide)
    exact hs'
  · next hkind =>
    rw [if_neg hkind] at hs'
    rwa [hs']

/-! ### Sections -/

/-- A section that was put in has no bytes yet, and its contents are about to change. -/
theorem source_eq_of_mem_withAnchors (hread : ∀ s ∈ m.sections, s.isChanged = false) {s : Section}
    (hs : s ∈ (withAnchors m).sections) (hchanged : s.isChanged = true) (point : UInt32) :
    s.source = [] ∧ ¬s.payload.Settled point := by
  rcases mem_withAnchors hs with hs | rfl | rfl
  · rw [hread s hs] at hchanged
    cases hchanged
  · exact ⟨rfl, List.not_mem_nil⟩
  · exact ⟨rfl, id⟩

theorem Outcome.metered_payload (h : Outcome m config costs result)
    (hanchored : (withAnchors m).Ordered) (hresult : result.module.Ordered) {s s' : Section}
    (hs : s ∈ (withAnchors m).sections) (hs' : s' ∈ result.module.sections)
    (hkind : s'.kind = s.kind) (hcustom : s.kind ≠ .custom) :
    s.payload.Becomes config costs m.insertionPoint s'.payload ∧
      (s.kind ≠ .code → (s'.payload = s.payload ↔ s.payload.Settled m.insertionPoint)) := by
  have hbefore := hanchored.contents?_eq hs hcustom
  have hafter := hresult.contents?_eq hs' (hkind ▸ hcustom)
  obtain ⟨⟨kind, before⟩, origin⟩ := s
  obtain ⟨⟨kind', after⟩, origin'⟩ := s'
  obtain rfl : kind' = kind := hkind
  obtain ⟨hbecomes, hsettled⟩ := h.metered_contents hcustom hbefore hafter
  refine ⟨⟨after, rfl, hbecomes⟩, fun hcode => ?_⟩
  rw [Payload.mk.injEq, heq_eq_eq]
  exact (and_iff_right rfl).trans (hsettled hcode)

/-- A custom section is not looked at. -/
theorem becomes_custom {s : Section} (hcustom : s.kind = .custom) :
    s.payload.Becomes config costs point s.payload ∧ s.payload.Settled point := by
  obtain ⟨⟨kind, contents⟩, origin⟩ := s
  obtain rfl : kind = .custom := hcustom
  exact ⟨⟨contents, rfl, rfl⟩, trivial⟩

theorem not_settled_code {s : Section} (hcode : s.kind = .code) : ¬s.payload.Settled point := by
  obtain ⟨⟨kind, contents⟩, origin⟩ := s
  obtain rfl : kind = .code := hcode
  exact id

/-- A section next to the one that it becomes. -/
theorem Outcome.becomes (h : Outcome m config costs result) (hanchored : (withAnchors m).Intact)
    (hresult : result.module.Intact) (hread : ∀ s ∈ m.sections, s.isChanged = false)
    {s s' : Section} (hs : s ∈ (withAnchors m).sections) (hs' : s' ∈ result.module.sections)
    (hchange : Reworked s s') : s.Becomes config costs m.insertionPoint s' := by
  have hmetered := h.metered_payload hanchored.ordered hresult.ordered hs hs'
  unfold Reworked at hchange
  by_cases hcode : s.kind = .code
  · rw [if_pos hcode] at hchange
    obtain ⟨payload, hkind, rfl⟩ := hchange
    refine ⟨(hmetered (hkind.trans hcode.symm) (hcode ▸ by decide)).1,
      Section.source_setPayload s _, Section.bounds?_setPayload s _, ?_, fun hne => absurd hcode hne⟩
    rw [Section.isChanged_setPayload]
    exact iff_of_false Bool.noConfusion (not_settled_code hcode)
  · rw [if_neg hcode] at hchange
    have hpayload : s.payload.Becomes config costs m.insertionPoint s'.payload ∧
        (s'.payload = s.payload ↔ s.payload.Settled m.insertionPoint) := by
      by_cases hcustom : s.kind = .custom
      · obtain rfl := hchange.eq_of_notMem (hcustom ▸ by decide)
        obtain ⟨hbecomes, hsettled⟩ := becomes_custom hcustom
        exact ⟨hbecomes, iff_of_true rfl hsettled⟩
      · exact (hmetered hchange.kind_eq hcustom).imp_right (· hcode)
    have hunchanged : s'.isChanged = false ↔ s.payload.Settled m.insertionPoint := by
      rw [hchange.isChanged_eq_false_iff, hpayload.2]
      refine and_iff_right_of_imp fun hsettled => Bool.not_eq_true _ ▸ fun hchanged => ?_
      exact (source_eq_of_mem_withAnchors hread hs hchanged _).2 hsettled
    refine ⟨hpayload.1, hchange.source_eq, hchange.bounds?_eq, hunchanged, fun _ => ?_⟩
    rw [← hunchanged]
    exact hchange.toBytes_eq_source_iff hcode (hanchored.sections s hs).unchanged
      (fun hc => (source_eq_of_mem_withAnchors hread hs hc 0).1) (hresult.sections s' hs').entries

end Metering

/-- The functions that a module imports can be counted in 32 bits. -/
theorem Module.toNat_insertionPoint_of_ofBytes {input : List UInt8}
    (h : Module.ofBytes input = .ok m) : m.insertionPoint.toNat = m.importedCount .function := by
  have hle : m.importedCount .function ≤ m.importEntries.length := List.countP_le_length
  have hlength := length_importEntries_of_ofBytes h
  exact UInt32.toNat_ofNat_of_lt' (show m.importedCount .function < 2 ^ 32 by omega)

/-- Metering puts a type section in front of all others and an import section behind the types,
where there is none, and leaves the sections in their places otherwise. Each of them becomes what
its kind says, and nothing else of it changes. It is written with the bytes it was read from exactly
if its contents can stay: custom sections and those of functions, tables, memories and data always;
types if the signature of the metering import is among them; exports, the start function, elements
and globals if they refer to no function that moves. -/
theorem Module.sections_of_meter {input : List UInt8} (hread : Module.ofBytes input = .ok m)
    (h : m.meter config costs = .ok result) :
    m.insertionPoint.toNat = m.importedCount .function ∧
      ∃ typed before types after,
        typed = (if .types ∈ m.kinds then m.sections else .build ⟨.types, []⟩ :: m.sections) ∧
          typed = before ++ types :: after ∧ types.kind = .types ∧
          List.Forall₂ (Section.Becomes config costs m.insertionPoint)
            (if .imports ∈ m.kinds then typed
              else before ++ types :: .build ⟨.imports, []⟩ :: after)
            result.module.sections := by
  have hintact := intact_of_ofBytes hread
  have hunchanged : ∀ s ∈ m.sections, s.isChanged = false := by
    intro s hs
    obtain ⟨before, after, hsplit⟩ := List.append_of_mem hs
    obtain ⟨_, _, -, -, -, horigin⟩ := (isReadAt_of_ofBytes hread hsplit).1
    rw [Section.isChanged, horigin]
  obtain ⟨typed, before, types, after, htyped, hsplit, hkind, hsections⟩ := sections_withAnchors m
  refine ⟨toNat_insertionPoint_of_ofBytes hread, typed, before, types, after, htyped, hsplit, hkind,
    ?_⟩
  rw [← hsections]
  refine (forall₂_mem (reworked_of_meter hintact h)).imp fun s s' hpair => ?_
  exact (outcome_of_meter h).becomes (intact_withAnchors hintact) (hintact.meter h) hunchanged
    hpair.1 hpair.2.1 hpair.2.2

/-- A custom section in front of a memory, its export and code without bodies: no types, no imports.
-/
def Module.unanchored : List UInt8 := [
  0x00, 0x61, 0x73, 0x6d, 0x01, 0x00, 0x00, 0x00,
  0x00, 0x03, 0x01, 0x78, 0x2a,
  0x05, 0x03, 0x01, 0x00, 0x01,
  0x07, 0x05, 0x01, 0x01, 0x6d, 0x02, 0x00,
  0x0a, 0x01, 0x00]

/-- Once both sections are there, and once both are put in, in front of the custom section. -/
theorem Module.sections_of_meter_sample :
    (∃ m result, Module.ofBytes sample.toBytes = .ok m ∧
      m.meter .standard (.constant 1) = .ok result ∧
      m.insertionPoint.toNat = m.importedCount .function ∧
      ∃ typed before types after,
        typed = (if .types ∈ m.kinds then m.sections else .build ⟨.types, []⟩ :: m.sections) ∧
          typed = before ++ types :: after ∧ types.kind = .types ∧
          List.Forall₂ (Section.Becomes .standard (.constant 1) m.insertionPoint)
            (if .imports ∈ m.kinds then typed
              else before ++ types :: .build ⟨.imports, []⟩ :: after)
            result.module.sections) ∧
      ∃ m result, Module.ofBytes unanchored = .ok m ∧
        m.meter .standard (.constant 1) = .ok result ∧
        m.kinds = [.custom, .memories, .exports, .code] ∧
        result.module.kinds = .types :: .imports :: m.kinds ∧
        m.insertionPoint.toNat = m.importedCount .function ∧
        ∃ before types after,
          .build ⟨.types, []⟩ :: m.sections = before ++ types :: after ∧ types.kind = .types ∧
            List.Forall₂ (Section.Becomes .standard (.constant 1) m.insertionPoint)
              (before ++ types :: .build ⟨.imports, []⟩ :: after) result.module.sections := by
  have hsample : (do
      let m ← Module.ofBytes sample.toBytes
      let _ ← m.meter .standard (.constant 1)
      return true : Except Error Bool) = .ok true := by decide +kernel
  have hok : (do
      let m ← Module.ofBytes unanchored
      let result ← m.meter .standard (.constant 1)
      return decide (m.kinds = [.custom, .memories, .exports, .code] ∧
        result.module.kinds = .types :: .imports :: m.kinds) : Except Error Bool) = .ok true := by
    decide +kernel
  obtain ⟨m, hread, hsample⟩ := ok_of_bind_iff.1 hsample
  obtain ⟨result, hmeter, -⟩ := ok_of_bind_iff.1 hsample
  refine ⟨⟨m, result, hread, hmeter, sections_of_meter hread hmeter⟩, ?_⟩
  obtain ⟨m, hread, hok⟩ := ok_of_bind_iff.1 hok
  obtain ⟨result, hmeter, hok⟩ := ok_of_bind_iff.1 hok
  obtain ⟨hkinds, hafter⟩ := of_decide_eq_true (ok_of_pure_iff.1 hok)
  obtain ⟨hpoint, typed, before, types, after, htyped, hsplit, hkind, hall⟩ :=
    sections_of_meter hread hmeter
  rw [if_neg (by rw [hkinds]; decide)] at htyped hall
  exact ⟨m, result, hread, hmeter, hkinds, hafter, hpoint, before, types, after,
    htyped.symm.trans hsplit, hkind, hall⟩

end WasmMeter
