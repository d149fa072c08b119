import WasmMeter.Proofs.Metering.Acceptance
import WasmMeter.Proofs.Metering.Stacking

/-!
Metering again and again. What was metered once is metered any number of times: the checks that it
passed do not fail later, as long as lengths and indices fit. The induction is on the later runs, with
the module that the first of them reads left open.
-/
namespace WasmMeter

open Metering

/-- In each run, the lengths that are written anew are 32-bit integers; see `Module.Fits`. -/
def RunsFit : List GasConfig → List UInt8 → Prop
  | [], _ => True
  | config :: rest, input =>
      match (do (← Module.ofBytes input).meter config config.costModel : Except Error Metered) with
      | .ok result => result.module.Fits ∧ RunsFit rest result.module.toBytes
      | .error _ => True

instance RunsFit.decidable :
    (configs : List GasConfig) → (input : List UInt8) → Decidable (RunsFit configs input)
  | [], _ => instDecidableTrue
  | config :: rest, input =>
      match h : (do (← Module.ofBytes input).meter config config.costModel :
        Except Error Metered) with
      | .ok result =>
          have := RunsFit.decidable rest result.module.toBytes
          decidable_of_iff (result.module.Fits ∧ RunsFit rest result.module.toBytes)
            (by rw [RunsFit, h])
      | .error _ => .isTrue (by rw [RunsFit, h]; trivial)

variable {input once : List UInt8} {m : Module} {config : GasConfig} {rest : List GasConfig}
  {result : Metered}

theorem RunsFit.of_meter (h : RunsFit (config :: rest) input) (hread : Module.ofBytes input = .ok m)
    (hmeter : m.meter config config.costModel = .ok result) :
    result.module.Fits ∧ RunsFit rest result.module.toBytes := by
  have hrun : (do (← Module.ofBytes input).meter config config.costModel : Except Error Metered) =
      .ok result := ok_of_bind_iff.2 ⟨m, hread, hmeter⟩
  rwa [RunsFit, hrun] at h

/-- One run: what it gives out is read as a module like the one that was made. -/
theorem RunsFit.exists_addGas (h : RunsFit (config :: rest) input)
    (hread : Module.ofBytes input = .ok m)
    (hmeter : m.meter config config.costModel = .ok result) :
    ∃ next, addGas input config = .ok result.module.toBytes ∧
      Module.ofBytes result.module.toBytes = .ok next ∧ result.module.Alike next ∧
      RunsFit rest result.module.toBytes := by
  obtain ⟨hfit, hlater⟩ := h.of_meter hread hmeter
  obtain ⟨next, hnext, hback⟩ := exists_ofBytes_of_meter hread hmeter hfit
  have hadd : addGas input config = .ok result.module.toBytes :=
    ok_of_bind_iff.2 ⟨m, hread, ok_of_bind_iff.2 ⟨result, hmeter, ok_of_bind_iff.2
      ⟨next, hnext, rfl⟩⟩⟩
  exact ⟨next, hadd, hnext, hback.alike, hlater⟩

/-- What was metered, written and read can be metered, whatever the configuration is. -/
theorem exists_meter_again {input' : List UInt8} {next : Module}
    (hmeter : m.meter config config.costModel = .ok result) (hsame : result.module.Alike next)
    (hnext : Module.ofBytes input' = .ok next) (hcount : m.functionSpace.length + 2 < 2 ^ 32)
    (config' : GasConfig) : ∃ result', next.meter config' config'.costModel = .ok result' := by
  have hlength := (outcome_of_meter hmeter).length_functionSpace
  have hresolved := hsame.resolved (Module.resolved_of_meter hmeter (by omega))
  rw [← hsame.functionSpace] at hlength
  exact (Module.intact_of_ofBytes hnext).exists_meter hresolved (by omega)
    (Module.length_typeEntries_of_ofBytes hnext) config' config'.costModel

/-- If the first run succeeds so do all the later ones, as long as indices and lengths fit. -/
theorem exists_foldlM_addGas (hread : Module.ofBytes input = .ok m)
    (hmeter : m.meter config config.costModel = .ok result)
    (hcount : m.functionSpace.length + (rest.length + 1) < 2 ^ 32)
    (hfits : RunsFit (config :: rest) input) :
    ∃ output other, (config :: rest).foldlM addGas input = .ok output ∧
      Module.ofBytes output = .ok other ∧ Stacked (config :: rest) m other := by
  induction rest generalizing input m config result with
  | nil =>
      obtain ⟨next, hadd, hnext, hsame, -⟩ := hfits.exists_addGas hread hmeter
      have hruns : [config].foldlM addGas input = .ok result.module.toBytes := by
        rw [List.foldlM_cons, hadd]
        rfl
      exact ⟨_, next, hruns, hnext,
        .single (outcome_of_meter hmeter) hsame (Module.length_typeEntries_of_ofBytes hread)⟩
  | cons config' rest ih =>
      obtain ⟨next, hadd, hnext, hsame, hlater⟩ := hfits.exists_addGas hread hmeter
      rw [List.length_cons] at hcount
      obtain ⟨result', hmeter'⟩ := exists_meter_again hmeter hsame hnext (by omega) config'
      have hlength : next.functionSpace.length = m.functionSpace.length + 1 := by
        rw [hsame.functionSpace, (outcome_of_meter hmeter).length_functionSpace]
      obtain ⟨output, other, hruns, hother, hstacked⟩ := ih hnext hmeter' (by omega) hlater
      refine ⟨output, other, ?_, hother, hstacked.cons (outcome_of_meter hmeter) hsame hcount⟩
      rw [List.foldlM_cons, hadd]
      exact hruns

/-- If a module can be metered once, it can be metered again and again with any configurations, as
long as all lengths and the number of functions are 32-bit integers. Each run adds an import, all of
them with one type, and one type at most is new. Every reference moves by the number of runs, and
every body pays for the last run first and keeps its instructions, apart from the references that
move; see `Stacked`. -/
theorem addGas_repeated (rest : List GasConfig) (hread : Module.ofBytes input = .ok m)
    (honce : addGas input config = .ok once)
    (hcount : m.functionSpace.length + (rest.length + 1) < 2 ^ 32)
    (hfits : RunsFit (config :: rest) input) :
    m.insertionPoint.toNat = m.importedCount .function ∧
      ∃ output other, (config :: rest).foldlM addGas input = .ok output ∧
        Module.ofBytes output = .ok other ∧ Stacked (config :: rest) m other := by
  obtain ⟨_, hread', honce⟩ := ok_of_bind_iff.1 honce
  cases hread.symm.trans hread'
  obtain ⟨result, hmeter, -⟩ := ok_of_bind_iff.1 honce
  exact ⟨m.toNat_insertionPoint (by omega), exists_foldlM_addGas hread hmeter hcount hfits⟩

/-- Two more runs, the first of which charges for each instruction. -/
def sampleRuns : List GasConfig :=
  [⟨"env", "steps", 3, true⟩, ⟨"meter", "fuel", -1, false⟩]

theorem addGas_repeated_sample :
    ∃ m once, Module.ofBytes Module.sample.toBytes = .ok m ∧
      addGas Module.sample.toBytes .standard = .ok once ∧
      m.functionSpace.length + (sampleRuns.length + 1) < 2 ^ 32 ∧
      RunsFit (.standard :: sampleRuns) Module.sample.toBytes ∧
      m.insertionPoint.toNat = m.importedCount .function ∧
      ∃ output other, (.standard :: sampleRuns).foldlM addGas Module.sample.toBytes = .ok output ∧
        Module.ofBytes output = .ok other ∧ Stacked (.standard :: sampleRuns) m other := by
  have hok : (do
      let m ← Module.ofBytes Module.sample.toBytes
      let _ ← addGas Module.sample.toBytes .standard
      return decide (m.functionSpace.length + (sampleRuns.length + 1) < 2 ^ 32) :
        Except Error Bool) = .ok true := by decide +kernel
  have hfits : RunsFit (.standard :: sampleRuns) Module.sample.toBytes := by decide +kernel
  obtain ⟨m, hread, hok⟩ := ok_of_bind_iff.1 hok
  obtain ⟨once, honce, hok⟩ := ok_of_bind_iff.1 hok
  have hcount := of_decide_eq_true (ok_of_pure_iff.1 hok)
  exact ⟨m, once, hread, honce, hcount, hfits,
    addGas_repeated sampleRuns hread honce hcount hfits⟩

end WasmMeter
