import WasmMeter.Proofs.Metering.Acceptance
import WasmMeter.Proofs.Reading.Refusal

/-!
Why metering fails. Of what is disassembled on the way, only bodies can fail to be code: constant
expressions were read as such, and moving their references keeps them so. What is left is that there
is no code, that bodies are missing, or that an index does not resolve.
-/
namespace WasmMeter

open Metering

/-- The code of a body is refused for the error, and it is the first body whose code is refused. -/
def FunctionBody.FirstRefused (bodies : List FunctionBody) (e : Error) : Prop :=
  ∃ before body after, bodies = before ++ body :: after ∧
    (∀ other ∈ before, ∃ d, Disassembly.ofBytesAt other.codeOffset other.code = .ok d) ∧
    Disassembly.ofBytesAt body.codeOffset body.code = .error e

namespace Metering

variable {m : Module} {config : GasConfig} {costs : CostModel} {e : Error}

/-- Checking indices finds one that does not resolve. -/
theorem kind_of_checkReferences {space : IndexSpace} {length : UInt32}
    {references : List (Site × UInt32)} (h : checkReferences space length references = .error e) :
    e.kind = .indexOutOfRange := by
  rw [checkReferences_eq] at h
  split at h <;> cases h
  rfl

variable {gasFunction functions : UInt32} {site : Site} {body : FunctionBody}

theorem meterBody_eq_error (h : meterBody costs gasFunction functions site body = .error e) :
    e.kind = .indexOutOfRange ∨ Disassembly.ofBytesAt body.codeOffset body.code = .error e := by
  rcases error_of_bind_iff.1 h with h | ⟨d, -, h⟩
  · exact .inr h
  · rcases error_of_bind_iff.1 h with h | ⟨_, -, h⟩
    · exact .inl (kind_of_checkReferences h)
    · cases h

/-- Bodies are metered in order, so those in front of the one that fails are code. -/
theorem meterBodies_eq_error {bodies : List FunctionBody} (hcode : m.contents? .code = some bodies)
    (h : meterBodies m costs gasFunction = .error e) :
    e.kind = .indexOutOfRange ∨ FunctionBody.FirstRefused bodies e := by
  rw [meterBodies, hcode] at h
  rcases error_of_bind_iff.1 h with h | ⟨_, -, h⟩
  · obtain ⟨before, ⟨site, body⟩, after, hsplit, hbefore, h⟩ := exists_split_of_mapM_eq_error h
    refine (meterBody_eq_error h).imp_right fun hrefused =>
      ⟨before.map (·.2), body, after.map (·.2), ?_, ?_, hrefused⟩
    · have hbodies : (Module.sites Site.body bodies).map (·.2) = bodies := by
        rw [Module.sites, List.map_map]
        exact List.zipIdx_map_fst 0 bodies
      rw [← hbodies, hsplit, List.map_append, List.map_cons]
    · refine List.forall_mem_map.2 fun entry hentry => ?_
      obtain ⟨metered, hmetered⟩ := hbefore entry hentry
      obtain ⟨d, hd, -⟩ := ok_of_bind_iff.1 hmetered
      exact ⟨d, hd⟩
  · cases h

/-- Everything outside the code that refers to a function is found in what was rewritten. -/
theorem Rewritten.exists_functionReferences {other : Module} (h : Rewritten m config costs other) :
    ∃ references, other.functionReferences = .ok references := by
  obtain ⟨found, -, hfound⟩ := h.sitesOutsideCode
  obtain ⟨references, hreferences, -⟩ := Module.functionReferences_of_sites hfound
  exact ⟨references, hreferences⟩

/-- The last check fails only for an index. -/
theorem Rewritten.kind_of_checkModule {other : Module} (h : Rewritten m config costs other)
    (hcheck : checkModule other = .error e) : e.kind = .indexOutOfRange := by
  obtain ⟨references, hreferences⟩ := h.exists_functionReferences
  rcases error_of_bind_iff.1 hcheck with hcheck | ⟨_, -, hcheck⟩
  · exact kind_of_checkReferences hcheck
  · rw [hreferences] at hcheck
    exact kind_of_checkReferences hcheck

/-- What metering as a whole may fail for, rather than the code of a body. -/
def meteringKinds : List Error.Kind := [.noCodeSection, .functionCountMismatch, .indexOutOfRange]

/-- An intact module that is not metered has no code, has not as many bodies as declarations, has an
index that does not resolve, or has a body that is refused for the error. -/
theorem meter_eq_error (h : m.Intact) (hmeter : m.meter config costs = .error e) :
    e.kind ∈ meteringKinds ∨
      ∃ bodies, m.contents? .code = some bodies ∧ FunctionBody.FirstRefused bodies e := by
  cases hcode : m.contents? .code with
  | none =>
      rw [Module.meter, hcode] at hmeter
      cases hmeter
      exact .inl (by decide)
  | some bodies =>
      by_cases hlength : m.declarations.length = bodies.length
      · rw [meter_eq hcode hlength] at hmeter
        obtain ⟨moved, hmoved, -⟩ :=
          (intact_extend h config).exists_mapReferences (shift · m.insertionPoint 1)
        have hmovedCode := (length_functionSpace_of_mapReferences hmoved).2
        have hindex (hkind : e.kind = .indexOutOfRange) : e.kind ∈ meteringKinds := by
          rw [hkind]
          decide
        rw [hmoved] at hmeter
        change (do let metered ← meterBodies moved costs m.insertionPoint; _) = _ at hmeter
        rcases error_of_bind_iff.1 hmeter with hmeter | ⟨other, hother, hmeter⟩
        · exact (meterBodies_eq_error (hmovedCode.trans hcode) hmeter).imp hindex
            fun hrefused => ⟨bodies, rfl, hrefused⟩
        · rcases error_of_bind_iff.1 hmeter with hmeter | ⟨_, -, hmeter⟩
          · exact .inl (hindex ((rewritten_of_meterBodies hmoved hother).kind_of_checkModule hmeter))
          · cases hmeter
      · rw [Module.meter, hcode] at hmeter
        dsimp only at hmeter
        rw [if_pos hlength] at hmeter
        cases hmeter
        exact .inl (by simp [meteringKinds, Error.kind])

end Metering

end WasmMeter
