import WasmMeter.Proofs.Metering.Acceptance

/-!
Type indices that no entry answers. Uses of types are checked once the metering import has its
signature, which is a new entry unless it was there before. So a module with an index that is out of
range by more than that is refused, but the first index that is out of range becomes the index of
the new signature: a function whose type was missing is then of the type of the metering import.
-/
namespace WasmMeter

open Metering

variable {m other : Module} {config : GasConfig} {costs : CostModel} {result : Metered}

/-- The number of types once the signature of the metering import is among them. -/
def Metering.typeCount (m : Module) : Nat :=
  if gasType ∈ m.typeEntries then m.typeEntries.length else m.typeEntries.length + 1

/-- The first use of a type that is refused is the first in the module before anything is added to
it: the use by the metering import resolves. -/
theorem Metering.Rewritten.find?_typeReferences (h : Rewritten m config costs other)
    (htypes : m.typeEntries.length + 1 < 2 ^ 32) :
    other.typeEntries.length = typeCount m ∧
      (other.typeReferences.find? fun r => other.typeEntries.length.toUInt32 ≤ r.2) =
        m.typeReferences.find? fun r => typeCount m ≤ r.2.toNat := by
  obtain ⟨position, site, before, after, hreserves, hbefore, hafter⟩ := h.typeReferences
  have hlength : other.typeEntries.length = typeCount m := hreserves.length_eq
  have hposition := hreserves.lt_length
  have hle := hreserves.length_le.2
  have hcount : (typeCount m).toUInt32.toNat = typeCount m :=
    UInt32.toNat_ofNat_of_lt' (show typeCount m < 2 ^ 32 by omega)
  have hindex : position.toUInt32.toNat = position :=
    UInt32.toNat_ofNat_of_lt' (show position < 2 ^ 32 by omega)
  refine ⟨hlength, ?_⟩
  simp only [hlength, UInt32.le_iff_toNat_le, hcount]
  have hgas : ¬typeCount m ≤ position.toUInt32.toNat := by omega
  rw [hafter, hbefore, List.find?_append, List.find?_append]
  congr 1
  exact List.find?_cons_of_neg (by rwa [decide_eq_true_iff])

/-- Where every reference to a function resolves, the uses of types decide. -/
theorem Module.Intact.exists_meter_eq (h : m.Intact) (hlinked : m.Linked)
    (hfunctions : m.functionSpace.length + 1 < 2 ^ 32)
    (htypes : m.typeEntries.length + 1 < 2 ^ 32) (config : GasConfig) (costs : CostModel) :
    ∃ result, m.meter config costs =
      match m.typeReferences.find? fun r => typeCount m ≤ r.2.toNat with
      | none => .ok result
      | some r => .error (.indexOutOfRange .types r.2 (typeCount m).toUInt32 r.1) := by
  obtain ⟨other, hrewritten, hmeter⟩ := h.exists_rewritten hlinked hfunctions config costs
  obtain ⟨hlength, hfind⟩ := hrewritten.find?_typeReferences htypes
  refine ⟨⟨other, m.insertionPoint⟩, ?_⟩
  rw [hmeter, checkReferences_eq, hfind, hlength]
  cases m.typeReferences.find? fun r => typeCount m ≤ r.2.toNat <;> rfl

theorem Module.functionType?_eq (m : Module) (function : Nat) :
    m.functionType? function =
      m.functionSpace[function]?.bind fun ref => m.typeEntries[ref.typeIndex.toNat]? := by
  unfold functionType? Module.typeEntries
  cases m.functionSpace[function]? with
  | none => rfl
  | some ref => cases m.contents? .types <;> rfl

/-- In the result every function has a type: its own, or that of the metering import. -/
theorem Metering.Outcome.functionType?_shift (h : Outcome m config costs result)
    (hcount : m.functionSpace.length < 2 ^ 32 - 1)
    (htypes : m.typeEntries.length + 1 < 2 ^ 32) {function : UInt32}
    (hfunction : function.toNat < m.functionSpace.length) :
    result.module.functionType? (shift function m.insertionPoint 1).toNat =
      some ((m.functionType? function.toNat).getD gasType) := by
  obtain ⟨position, hreserves, -⟩ := h.entries
  have hle := hreserves.length_le.2
  have hlength := h.length_functionSpace
  have hlimit := Module.toNat_functionCount (m := result.module) (by omega)
  have hmoved : shift function m.insertionPoint 1 < result.module.functionCount :=
    shift_lt (by omega) m.insertionPoint
  obtain ⟨-, -, -, hsame⟩ := h.resolves hcount hmoved
  obtain ⟨ref, href⟩ : ∃ ref, m.functionSpace[function.toNat]? = some ref :=
    ⟨_, List.getElem?_eq_getElem hfunction⟩
  rw [href] at hsame
  have hchecked := Module.forall_typeReferences (P := (· < _)).1
    (checkModule_eq_ok_iff.1 h.checked).1 ref (List.mem_of_getElem? hsame)
  have hindex : ref.typeIndex.toNat < result.module.typeEntries.length := by
    rwa [UInt32.lt_iff_toNat_lt, UInt32.toNat_ofNat_of_lt'
      (show result.module.typeEntries.length < 2 ^ 32 by omega)] at hchecked
  rw [Module.functionType?_eq, Module.functionType?_eq, hsame, href, Option.bind_some,
    Option.bind_some, hreserves.getElem?_of_lt hindex]

/-- What metering makes of type indices that are out of range, in a module that was read and in
which every reference to a function resolves. An index that is still out of range with the signature
of the metering import is reported. If there is none, the module is metered, every function that had
a type keeps it, and every other one gets that signature. So an index that is out of range passes
exactly if the signature is new and no index is greater than its index. -/
theorem Module.meter_of_linked {input : List UInt8} (hread : Module.ofBytes input = .ok m)
    (hlinked : m.Linked) (config : GasConfig) (costs : CostModel) :
    ((∃ ref ∈ m.functionSpace, typeCount m ≤ ref.typeIndex.toNat) →
        ∃ r, (m.typeReferences.find? fun r => typeCount m ≤ r.2.toNat) = some r ∧
          m.meter config costs =
            .error (.indexOutOfRange .types r.2 (typeCount m).toUInt32 r.1)) ∧
      ((∀ ref ∈ m.functionSpace, ref.typeIndex.toNat < typeCount m) →
        ∃ result, m.meter config costs = .ok result ∧
          ∀ function : UInt32, function.toNat < m.functionSpace.length →
            result.module.functionType? (shift function m.insertionPoint 1).toNat =
              some ((m.functionType? function.toNat).getD gasType)) ∧
      ((∃ result, m.meter config costs = .ok result) ∧
          (∃ ref ∈ m.functionSpace, m.typeEntries.length ≤ ref.typeIndex.toNat) ↔
        gasType ∉ m.typeEntries ∧
          (∃ ref ∈ m.functionSpace, ref.typeIndex.toNat = m.typeEntries.length) ∧
          ∀ ref ∈ m.functionSpace, ref.typeIndex.toNat ≤ m.typeEntries.length) := by
  have htypes := length_typeEntries_of_ofBytes hread
  obtain ⟨bodies, hcode, hlength⟩ := hlinked.bodies
  have hcount := length_functionSpace_of_ofBytes hread hcode hlength
  obtain ⟨result, hmeter⟩ :=
    (intact_of_ofBytes hread).exists_meter_eq hlinked (by omega) htypes config costs
  have hnone : (m.typeReferences.find? fun r => typeCount m ≤ r.2.toNat) = none ↔
      ∀ ref ∈ m.functionSpace, ref.typeIndex.toNat < typeCount m := by
    rw [← forall_typeReferences (P := (·.toNat < typeCount m))]
    simp [List.find?_eq_none]
  have hok : (∃ result, m.meter config costs = .ok result) ↔
      ∀ ref ∈ m.functionSpace, ref.typeIndex.toNat < typeCount m := by
    rw [← hnone, hmeter]
    cases m.typeReferences.find? fun r => typeCount m ≤ r.2.toNat with
    | none => exact iff_of_true ⟨result, rfl⟩ rfl
    | some r => exact iff_of_false (fun ⟨_, h⟩ => by cases h) (by simp)
  refine ⟨?_, fun hall => ?_, ?_⟩
  · rintro ⟨ref, href, hge⟩
    cases hfind : m.typeReferences.find? fun r => typeCount m ≤ r.2.toNat with
    | none => exact absurd (hnone.1 hfind ref href) (Nat.not_lt.2 hge)
    | some r =>
        rw [hfind] at hmeter
        exact ⟨r, rfl, hmeter⟩
  · obtain ⟨result, hresult⟩ := hok.2 hall
    exact ⟨result, hresult, fun function hfunction =>
      (outcome_of_meter hresult).functionType?_shift hcount htypes hfunction⟩
  · rw [hok]
    by_cases hmem : gasType ∈ m.typeEntries
    · rw [typeCount, if_pos hmem]
      refine iff_of_false ?_ fun h => h.1 hmem
      rintro ⟨hall, ref, href, hge⟩
      exact absurd (hall ref href) (Nat.not_lt.2 hge)
    · rw [typeCount, if_neg hmem]
      simp only [Nat.lt_succ_iff]
      constructor
      · rintro ⟨hall, ref, href, hge⟩
        exact ⟨hmem, ⟨ref, href, Nat.le_antisymm (hall ref href) hge⟩, hall⟩
      · rintro ⟨-, ⟨ref, href, heq⟩, hall⟩
        exact ⟨hall, ref, href, Nat.le_of_eq heq.symm⟩

/-- A module with one type and one function, whose type index is the first one that is out of range.
-/
def Module.dangling : List UInt8 := [
  0x00, 0x61, 0x73, 0x6d, 0x01, 0x00, 0x00, 0x00,
  0x01, 0x04, 0x01, 0x60, 0x00, 0x00,
  0x03, 0x02, 0x01, 0x01,
  0x0a, 0x04, 0x01, 0x02, 0x00, 0x0b]

/-- Its function had no type, and then has that of the metering import. -/
theorem Module.functionType?_dangling :
    ∃ m result, Module.ofBytes dangling = .ok m ∧ m.Linked ∧
      m.functionSpace.map FunctionRef.typeIndex = [1] ∧ m.typeEntries.length = 1 ∧
      m.functionType? 0 = none ∧ m.meter .standard (.constant 1) = .ok result ∧
      shift 0 m.insertionPoint 1 = 1 ∧ result.module.functionType? 1 = some gasType := by
  have hok : (do
      let m ← Module.ofBytes dangling
      let result ← m.meter .standard (.constant 1)
      return decide (m.functionSpace.length < 2 ^ 32 - 1 ∧
        m.functionSpace.map FunctionRef.typeIndex = [1] ∧ m.typeEntries.length = 1 ∧
        m.functionType? 0 = none ∧ shift 0 m.insertionPoint 1 = 1 ∧
        result.module.functionType? 1 = some gasType) : Except Error Bool) = .ok true := by
    decide +kernel
  obtain ⟨m, hread, hok⟩ := ok_of_bind_iff.1 hok
  obtain ⟨result, hmeter, hok⟩ := ok_of_bind_iff.1 hok
  obtain ⟨hcount, hspace, hlength, hnone, hmoved, htype⟩ :=
    of_decide_eq_true (ok_of_pure_iff.1 hok)
  exact ⟨m, result, hread, linked_of_meter hmeter hcount, hspace, hlength, hnone, hmeter, hmoved,
    htype⟩

theorem Module.meter_of_linked_dangling :
    ∃ m, Module.ofBytes dangling = .ok m ∧ m.Linked ∧
      (∀ ref ∈ m.functionSpace, ref.typeIndex.toNat < typeCount m) ∧
      (∃ result, m.meter .standard (.constant 1) = .ok result ∧
        ∀ function : UInt32, function.toNat < m.functionSpace.length →
          result.module.functionType? (shift function m.insertionPoint 1).toNat =
            some ((m.functionType? function.toNat).getD gasType)) ∧
      ((∃ result, m.meter .standard (.constant 1) = .ok result) ∧
          (∃ ref ∈ m.functionSpace, m.typeEntries.length ≤ ref.typeIndex.toNat) ↔
        gasType ∉ m.typeEntries ∧
          (∃ ref ∈ m.functionSpace, ref.typeIndex.toNat = m.typeEntries.length) ∧
          ∀ ref ∈ m.functionSpace, ref.typeIndex.toNat ≤ m.typeEntries.length) := by
  have hok : (do
      let m ← Module.ofBytes dangling
      let _ ← m.meter .standard (.constant 1)
      return decide (∀ ref ∈ m.functionSpace, ref.typeIndex.toNat < typeCount m) :
        Except Error Bool) = .ok true := by decide +kernel
  obtain ⟨m, hread, hok⟩ := ok_of_bind_iff.1 hok
  obtain ⟨result, hmeter, hok⟩ := ok_of_bind_iff.1 hok
  have hall := of_decide_eq_true (ok_of_pure_iff.1 hok)
  obtain ⟨bodies, hcode, hlength⟩ := length_eq_of_meter hmeter
  have hcount := length_functionSpace_of_ofBytes hread hcode hlength
  have hlinked := linked_of_meter hmeter hcount
  obtain ⟨-, hmetered, hiff⟩ := meter_of_linked hread hlinked .standard (.constant 1)
  exact ⟨m, hread, hlinked, hall, hmetered hall, hiff⟩

end WasmMeter
