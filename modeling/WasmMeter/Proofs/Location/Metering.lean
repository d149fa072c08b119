import WasmMeter.Proofs.Location.Sections
import WasmMeter.Proofs.Metering.Failure

/-!
Where the errors of metering are. Only the code of a body can fail to be read, and what metering fails
for otherwise has no offset. So an error that has one was found when the input was read, or in the code
of a body, which stands in the input at the offset that the body has.
-/
namespace WasmMeter

open Reader Metering

/-! ### Code at its offset -/

namespace Disassembly

variable {base : Nat} {code : List UInt8} {e : Error}

/-- The errors of code have offsets that move with the code. -/
theorem offset?_move (h : ofBytesAt base code = .error e) (distance : Nat) :
    (e.move distance).offset? = e.offset?.map (· + distance) := by
  have hmoved (distance : Nat) : ofBytesAt (base + distance) code = .error (e.move distance) := by
    rw [ofBytesAt_add, h]
    rfl
  cases e with
  -- The errors of a header stay where they are, so far behind they cannot be found.
  | badMagic found =>
      have hplace := offset_mem_of_ofBytesAt (hmoved 1) rfl
      omega
  | unsupportedVersion version =>
      have hplace := offset_mem_of_ofBytesAt (hmoved 5) rfl
      omega
  | _ => rfl

end Disassembly

/-! ### Metering -/

namespace Metering

variable {m : Module} {config : GasConfig} {costs : CostModel} {e : Error} {n : Nat}

/-- What metering as a whole fails for has no offset. -/
theorem offset?_of_mem_meteringKinds (h : e.kind ∈ meteringKinds) : e.offset? = none := by
  cases e <;> first | rfl | simp [meteringKinds, Error.kind] at h

/-- An intact module that is refused for something that has an offset has a body that is refused for
it. -/
theorem exists_body_of_meter (h : m.Intact) (hmeter : m.meter config costs = .error e)
    (hn : e.offset? = some n) :
    ∃ bodies, m.contents? .code = some bodies ∧
      ∃ body ∈ bodies, Disassembly.ofBytesAt body.codeOffset body.code = .error e := by
  rcases meter_eq_error h hmeter with hkind | ⟨bodies, hcode, before, body, after, rfl, -, he⟩
  · rw [offset?_of_mem_meteringKinds hkind] at hn
    cases hn
  · exact ⟨_, hcode, body, List.mem_append_right _ List.mem_cons_self, he⟩

end Metering

/-- The offset of an error is one of the input or its end, and what stands there is what the error
says. The error was found when the input was read as a module, or it is in the code of a body of the
module that was read, between the ends of the code. Code that begins further on is disassembled in the
same way, or refused for the same reason as much further on. -/
theorem located_of_addGas (input : List UInt8) (config : GasConfig)
    (hfits : ∀ m result, Module.ofBytes input = .ok m →
      m.meter config config.costModel = .ok result → result.module.Fits) :
    (∀ e n, addGas input config = .error e → e.offset? = some n →
      n ≤ input.length ∧ e.Describes (input.drop n) ∧
        (Module.ofBytes input = .error e ∨
          ∃ m bodies body, Module.ofBytes input = .ok m ∧ m.contents? .code = some bodies ∧
            body ∈ bodies ∧ Disassembly.ofBytesAt body.codeOffset body.code = .error e ∧
            body.codeOffset ≤ n ∧ n ≤ body.codeOffset + body.code.length)) ∧
    ∀ base distance code,
      (∃ d, Disassembly.ofBytesAt base code = .ok d ∧
        Disassembly.ofBytesAt (base + distance) code = .ok d) ∨
      ∃ e, Disassembly.ofBytesAt base code = .error e ∧
        Disassembly.ofBytesAt (base + distance) code = .error (e.move distance) ∧
        (e.move distance).offset? = e.offset?.map (· + distance) := by
  constructor
  · intro e n h hn
    rcases error_of_bind_iff.1 h with hread | ⟨m, hread, h⟩
    · obtain ⟨⟨-, hle⟩, hdescribes⟩ := Module.locatedIn_of_ofBytes hread n hn
      exact ⟨hle, hdescribes, .inl hread⟩
    · rcases error_of_bind_iff.1 h with hmeter | ⟨result, hmeter, h⟩
      · obtain ⟨bodies, hcode, body, hbody, he⟩ :=
          exists_body_of_meter (Module.intact_of_ofBytes hread) hmeter hn
        have hlies := Module.liesIn_of_ofBytes hread hcode body hbody
        obtain ⟨⟨-, hle⟩, hdescribes⟩ :=
          Disassembly.locatedIn_ofBytesAt ⟨hlies, Nat.zero_le _⟩ he n hn
        exact ⟨hle, hdescribes, .inr ⟨m, bodies, body, hread, hcode, hbody, he,
          Disassembly.offset_mem_of_ofBytesAt he hn⟩⟩
      · obtain ⟨m', hback, -⟩ := exists_ofBytes_of_meter hread hmeter (hfits m result hread hmeter)
        rcases error_of_bind_iff.1 h with h | ⟨_, -, h⟩
        · cases hback.symm.trans h
        · cases h
  · intro base distance code
    have hmoved := Disassembly.ofBytesAt_add base distance code
    cases h : Disassembly.ofBytesAt base code with
    | ok d => exact .inl ⟨d, rfl, by rw [hmoved, h]; rfl⟩
    | error e =>
        exact .inr ⟨e, rfl, by rw [hmoved, h]; rfl, Disassembly.offset?_move h distance⟩

/-- A module whose only body has an opcode that is not known as its second instruction. -/
def Module.unknown : List UInt8 := [
  0x00, 0x61, 0x73, 0x6d, 0x01, 0x00, 0x00, 0x00,
  0x01, 0x04, 0x01, 0x60, 0x00, 0x00,
  0x03, 0x02, 0x01, 0x00,
  0x0a, 0x06, 0x01, 0x04, 0x00, 0x01, 0x06, 0x0b]

theorem located_of_addGas_unknown :
    (∀ m result, Module.ofBytes Module.unknown = .ok m →
      m.meter .standard GasConfig.standard.costModel = .ok result → result.module.Fits) ∧
    ∃ e, addGas Module.unknown .standard = .error e ∧ e.offset? = some 24 ∧
      24 ≤ Module.unknown.length ∧ e.Describes (Module.unknown.drop 24) ∧
      (Module.ofBytes Module.unknown = .error e ∨
        ∃ m bodies body, Module.ofBytes Module.unknown = .ok m ∧
          m.contents? .code = some bodies ∧ body ∈ bodies ∧
          Disassembly.ofBytesAt body.codeOffset body.code = .error e ∧
          body.codeOffset ≤ 24 ∧ 24 ≤ body.codeOffset + body.code.length) := by
  have hmeter : (do
      let m ← Module.ofBytes Module.unknown
      let result ← m.meter .standard GasConfig.standard.costModel
      return decide result.module.Fits : Except Error Bool) =
        .error (.unknownOpcode 0x06 none 24) := by decide +kernel
  have herror : addGas Module.unknown .standard = .error (.unknownOpcode 0x06 none 24) := by
    decide +kernel
  have hfits : ∀ m result, Module.ofBytes Module.unknown = .ok m →
      m.meter .standard GasConfig.standard.costModel = .ok result → result.module.Fits := by
    intro m result hread hresult
    rw [hread] at hmeter
    change (do let result ← m.meter .standard GasConfig.standard.costModel; _) = _ at hmeter
    rw [hresult] at hmeter
    cases hmeter
  exact ⟨hfits, _, herror, rfl,
    (located_of_addGas Module.unknown .standard hfits).1 _ 24 herror rfl⟩

end WasmMeter
