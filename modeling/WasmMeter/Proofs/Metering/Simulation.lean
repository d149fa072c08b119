import WasmMeter.Proofs.Agreement
import WasmMeter.Proofs.Metering.Outcome
import WasmMeter.Proofs.Module.Alike

/-!
Two modules that are metered side by side. Metering looks at contents, and at the offset of code only
to say where an error is. So it is enough to say what metering does to the sections themselves: a
relation between modules with the same contents that holds again once anchors are put in or contents are
replaced in both holds of what metering makes of them, unless both are refused for the same reason.
-/
namespace WasmMeter

open Metering

namespace Module

variable {m m' : Module}

/-- The modules hold the same contents, and the same code in their bodies. Custom sections may differ.
-/
structure ContentsAlike (m m' : Module) : Prop where
  contents : ∀ kind, kind ≠ .custom → kind ≠ .code → m'.contents? kind = m.contents? kind
  code : Option.Rel (List.Forall₂ FunctionBody.Alike) (m.contents? .code) (m'.contents? .code)

/-- Modules that are alike section by section hold the same contents of every kind. -/
theorem Alike.contentsAlike (h : m.Alike m') : m.ContentsAlike m' := by
  refine ⟨fun kind _ hcode => h.contents?_eq hcode, ?_⟩
  have hbodies := h.bodies
  have hcode := h.code
  unfold Module.bodies at hbodies
  cases hc : m.contents? .code with
  | none =>
      rw [hc, Option.map_none, Option.map_eq_none_iff] at hcode
      rw [hcode]
      exact .none
  | some bodies =>
      rw [hc, Option.map_some, Option.map_eq_some_iff] at hcode
      obtain ⟨bodies', hc', -⟩ := hcode
      rw [hc, hc', Option.getD_some, Option.getD_some] at hbodies
      rw [hc']
      exact .some hbodies

namespace ContentsAlike

theorem typeEntries (h : m.ContentsAlike m') : m'.typeEntries = m.typeEntries := by
  rw [Module.typeEntries, h.contents _ (by decide) (by decide)]

theorem importEntries (h : m.ContentsAlike m') : m'.importEntries = m.importEntries := by
  rw [Module.importEntries, h.contents _ (by decide) (by decide)]

theorem declarations (h : m.ContentsAlike m') : m'.declarations = m.declarations := by
  rw [Module.declarations, h.contents _ (by decide) (by decide)]

theorem importedCount (h : m.ContentsAlike m') (kind : ExternalKind) :
    m'.importedCount kind = m.importedCount kind := by
  rw [Module.importedCount, Module.importedCount, h.importEntries]

/-- Both modules put the gas function at the same index. -/
theorem insertionPoint (h : m.ContentsAlike m') : m'.insertionPoint = m.insertionPoint := by
  rw [Module.insertionPoint, Module.insertionPoint, h.importedCount]

theorem functionCount (h : m.ContentsAlike m') : m'.functionCount = m.functionCount := by
  rw [Module.functionCount, Module.functionCount, h.importedCount, h.declarations]

end ContentsAlike

/-- Related entries stand for the same sites. -/
theorem forall₂_sites {α β : Type} {R : α → β → Prop} {entries : List α} {others : List β}
    (h : List.Forall₂ R entries others) (site : Nat → Site) :
    List.Forall₂ (fun a b => b.1 = a.1 ∧ R a.2 b.2) (sites site entries) (sites site others) := by
  unfold sites
  rw [List.forall₂_map_left_iff, List.forall₂_map_right_iff]
  generalize 0 = first
  induction h generalizing first with
  | nil => exact .nil
  | cons hab _ ih => exact .cons ⟨rfl, hab⟩ (ih (first + 1))

end Module

namespace Metering

variable {config : GasConfig} {costs : CostModel}

/-- A body is metered for its code, wherever that stood. -/
theorem agree_meterBody {body body' : FunctionBody} (h : body.Alike body')
    (gasFunction functions : UInt32) (site : Site) :
    Agree FunctionBody.Alike (meterBody costs gasFunction functions site body)
      (meterBody costs gasFunction functions site body') := by
  obtain ⟨hlocals, hcode⟩ := h
  unfold meterBody
  rw [hcode]
  refine (Disassembly.agree_ofBytesAt body.codeOffset body'.codeOffset body.code).bind ?_
  rintro d _ rfl
  refine (Agree.refl (R := fun _ _ => True) (fun _ => trivial) _).bind fun _ _ _ => ?_
  exact .ok ⟨hlocals, rfl⟩

/-- A relation between modules with the same contents that every change of sections keeps which
metering makes. -/
structure Simulation (R : Module → Module → Prop) : Prop where
  contents : ∀ {m m'}, R m m' → m.ContentsAlike m'
  anchors : ∀ {m m'}, R m m' → R (withAnchors m) (withAnchors m')
  modify : ∀ {m m'}, R m m' → ∀ {kind : SectionKind}, kind ≠ .custom → kind ≠ .code →
    ∀ change, R (m.modify kind change) (m'.modify kind change)
  code : ∀ {m m'}, R m m' → ∀ {bodies bodies'}, List.Forall₂ FunctionBody.Alike bodies bodies' →
    R (m.modify .code fun _ => bodies) (m'.modify .code fun _ => bodies')

namespace Simulation

variable {R : Module → Module → Prop} {m m' : Module}

theorem reserveType (hR : Simulation R) (h : R m m') :
    R (reserveType m).1 (reserveType m').1 ∧ (reserveType m').2 = (reserveType m).2 := by
  unfold Metering.reserveType
  rw [(hR.contents h).typeEntries]
  dsimp only
  split
  · exact ⟨h, rfl⟩
  · exact ⟨hR.modify h (by decide) (by decide) _, rfl⟩

/-- The relation survives the import of the gas function. -/
theorem extend (hR : Simulation R) (h : R m m') (config : GasConfig) :
    R (extend m config) (extend m' config) := by
  obtain ⟨htyped, hindex⟩ := hR.reserveType (hR.anchors h)
  unfold Metering.extend
  rw [hindex]
  exact hR.modify htyped (by decide) (by decide) _

/-- Contents other than code are adjusted alike, and fail to be for the same reason. -/
theorem adjust (hR : Simulation R) (h : R m m') {kind : SectionKind} (hcustom : kind ≠ .custom)
    (hcode : kind ≠ .code) (change : kind.Contents → Except Error kind.Contents) :
    Agree R (m.adjust kind change) (m'.adjust kind change) := by
  unfold Module.adjust
  rw [(hR.contents h).contents kind hcustom hcode]
  cases m.contents? kind with
  | none => exact .ok h
  | some contents =>
      refine (Agree.refl (R := (· = ·)) (fun _ => rfl) (change contents)).bind ?_
      rintro changed _ rfl
      refine .ok ?_
      split
      · exact h
      · exact hR.modify h hcustom hcode _

/-- Both moves succeed and are related, or both fail alike. -/
theorem mapReferences (hR : Simulation R) (h : R m m') (f : UInt32 → UInt32) :
    Agree R (m.mapReferences f) (m'.mapReferences f) :=
  (hR.adjust h (by decide) (by decide) _).bind fun _ _ hexports =>
    (hR.adjust hexports (by decide) (by decide) _).bind fun _ _ hstart =>
      (hR.adjust hstart (by decide) (by decide) _).bind fun _ _ helements =>
        hR.adjust helements (by decide) (by decide) _

/-- The bodies are charged alike, as they differ at most in their offsets. -/
theorem meterBodies (hR : Simulation R) (h : R m m') (gasFunction : UInt32) :
    Agree R (meterBodies m costs gasFunction) (meterBodies m' costs gasFunction) := by
  have hcode := (hR.contents h).code
  unfold Metering.meterBodies
  generalize m.contents? .code = code, m'.contents? .code = code' at hcode
  cases hcode with
  | none => exact .error rfl
  | some hbodies =>
      dsimp only
      rw [(hR.contents h).functionCount]
      refine Agree.bind (Agree.mapM (Module.forall₂_sites hbodies .body) ?_) fun _ _ hmetered =>
        .ok (hR.code h hmetered)
      rintro ⟨site, body⟩ ⟨_, body'⟩ ⟨rfl, hbody⟩
      exact agree_meterBody hbody gasFunction _ _

/-- The modules are metered to modules that are related again, or refused for the same reason. -/
theorem meter (hR : Simulation R) (h : R m m') (config : GasConfig) (costs : CostModel) :
    Agree (fun result result' => R result.module result'.module ∧
        result'.gasFunction = result.gasFunction)
      (m.meter config costs) (m'.meter config costs) := by
  have hcontents := hR.contents h
  have hcode := hcontents.code
  generalize hbefore : m.contents? .code = code, hafter : m'.contents? .code = code' at hcode
  cases hcode with
  | none =>
      unfold Module.meter
      rw [hbefore, hafter]
      exact .error rfl
  | @some bodies bodies' hbodies =>
      by_cases hlength : m.declarations.length = bodies.length
      · have hlength' : m'.declarations.length = bodies'.length := by
          rw [hcontents.declarations, hlength, hbodies.length_eq]
        rw [meter_eq hbefore hlength, meter_eq hafter hlength', hcontents.insertionPoint]
        refine (hR.mapReferences (hR.extend h config) _).bind fun _ _ hmoved => ?_
        refine (hR.meterBodies hmoved _).bind fun _ _ hmetered => ?_
        rw [checkModule_congr (hR.contents hmetered).contents]
        exact (Agree.refl (R := fun _ _ => True) (fun _ => trivial) _).bind fun _ _ _ =>
          .ok ⟨hmetered, rfl⟩
      · unfold Module.meter
        rw [hbefore, hafter]
        dsimp only
        rw [hcontents.declarations, ← hbodies.length_eq, if_pos hlength, if_pos hlength]
        exact .error rfl

end Simulation

end Metering

end WasmMeter
