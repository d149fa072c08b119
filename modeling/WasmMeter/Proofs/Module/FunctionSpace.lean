import Mathlib.Algebra.Group.Nat.Defs
import WasmMeter.Gas.Reference
import WasmMeter.Gas.Shift

/-!
The index space of functions under a new import. Imports are numbered among the imports of every
kind, functions among the functions only; an import that is added as the last one therefore stands
behind the imported functions and in front of the defined ones.
-/
namespace WasmMeter.Module

theorem isSome_functionType? (type : ImportType) :
    type.functionType?.isSome = decide (type.kind = .function) := by
  cases type <;> rfl

theorem length_importedFunctions (entries : List Import) :
    (importedFunctions entries).length = entries.countP (·.type.kind = .function) := by
  have hnumbers := List.countP_map (p := fun entry : Import => decide (entry.type.kind = .function))
    (f := Prod.fst) (l := entries.zipIdx)
  rw [List.zipIdx_map_fst] at hnumbers
  rw [hnumbers, importedFunctions, List.length_filterMap_eq_countP]
  congr 1
  funext ⟨entry, number⟩
  simp only [Option.isSome_map, isSome_functionType?, Function.comp_apply]

theorem importedFunctions_concat (entries : List Import) (moduleName fieldName : String)
    (typeIndex : UInt32) :
    importedFunctions (entries ++ [⟨moduleName, fieldName, .function typeIndex⟩]) =
      importedFunctions entries ++ [.imported entries.length typeIndex] := by
  rw [importedFunctions, List.zipIdx_append, List.filterMap_append, Nat.zero_add]
  rfl

variable {m other : Module}

/-- The function index space holds the imported functions and then the declared ones. -/
theorem length_functionSpace (m : Module) :
    m.functionSpace.length = m.importedCount .function + m.declarations.length := by
  rw [functionSpace, List.length_append, length_importedFunctions, definedFunctions,
    List.length_map, List.length_zipIdx, importedCount]

/-- As long as there are indices for all functions, counting them in 32 bits is counting them. -/
theorem toNat_functionCount (h : m.functionSpace.length < 2 ^ 32) :
    m.functionCount.toNat = m.functionSpace.length := by
  rw [length_functionSpace] at h ⊢
  rw [functionCount, UInt32.toNat_add, UInt32.toNat_ofNat', UInt32.toNat_ofNat']
  omega

/-- Types are referred to as the signatures of functions only. -/
theorem map_snd_typeReferences (m : Module) :
    m.typeReferences.map (·.2) = m.functionSpace.map FunctionRef.typeIndex := by
  have himported : (importedFunctions m.importEntries).map FunctionRef.typeIndex =
      m.importEntries.filterMap fun entry => entry.type.functionType? := by
    calc (importedFunctions m.importEntries).map FunctionRef.typeIndex
        = m.importEntries.zipIdx.filterMap
            ((fun entry => entry.type.functionType?) ∘ Prod.fst) := by
          rw [importedFunctions, List.map_filterMap]
          congr 1
          funext ⟨entry, number⟩
          exact Option.map_map .. |>.trans Option.map_id'
      _ = m.importEntries.filterMap fun entry => entry.type.functionType? := by
          rw [← List.filterMap_map, List.zipIdx_map_fst]
  have hused : (m.importEntries.filterMap fun entry => entry.type.functionType?.map
        (Site.importEntry entry.moduleName entry.fieldName, ·)).map (·.2) =
      m.importEntries.filterMap fun entry => entry.type.functionType? := by
    rw [List.map_filterMap]
    congr 1
    funext entry
    exact Option.map_map .. |>.trans Option.map_id'
  have hdefined : (sites .declaration m.declarations).map (·.2) =
      (definedFunctions m.declarations).map FunctionRef.typeIndex := by
    rw [sites, definedFunctions, List.map_map, List.map_map]
    rfl
  rw [typeReferences, functionSpace, List.map_append, List.map_append, himported, hused,
    hdefined]

/-- The type references are the type indices of the function index space. -/
theorem forall_typeReferences {P : UInt32 → Prop} :
    (∀ r ∈ m.typeReferences, P r.2) ↔ ∀ ref ∈ m.functionSpace, P ref.typeIndex := by
  have hmap := List.forall_mem_map (f := fun r : Site × UInt32 => r.2) (l := m.typeReferences)
    (P := P)
  rw [map_snd_typeReferences, List.forall_mem_map] at hmap
  exact hmap.symm

/-- A function import that is added as the last import takes the place of the first defined
function. -/
theorem functionSpace_of_import {moduleName fieldName : String} {typeIndex : UInt32}
    (himports : other.importEntries =
      m.importEntries ++ [⟨moduleName, fieldName, .function typeIndex⟩])
    (hfunctions : other.declarations = m.declarations) :
    other.functionSpace = m.functionSpace.take (m.importedCount .function) ++
      .imported m.importEntries.length typeIndex ::
        m.functionSpace.drop (m.importedCount .function) := by
  have hlength : m.importedCount .function = (importedFunctions m.importEntries).length :=
    (length_importedFunctions m.importEntries).symm
  rw [functionSpace, himports, hfunctions, importedFunctions_concat, functionSpace, hlength,
    List.take_left, List.drop_left, List.append_assoc]
  rfl

theorem length_functionSpace_of_import {moduleName fieldName : String} {typeIndex : UInt32}
    (himports : other.importEntries =
      m.importEntries ++ [⟨moduleName, fieldName, .function typeIndex⟩])
    (hfunctions : other.declarations = m.declarations) :
    other.functionSpace.length = m.functionSpace.length + 1 := by
  have hle : m.importedCount .function ≤ m.functionSpace.length := by
    rw [length_functionSpace]
    omega
  rw [functionSpace_of_import himports hfunctions, List.length_append,
    List.length_take_of_le hle, List.length_cons, List.length_drop]
  omega

variable {α : Type} {entries others : List α} {entry : α} {point limit index : UInt32}

/-- In a list with one more entry at `point`, a moved index finds what it found before, and no moved
index finds the new entry. -/
theorem getElem?_shift
    (hothers : others = entries.take point.toNat ++ entry :: entries.drop point.toNat)
    (hpoint : point.toNat ≤ entries.length) (hlimit : limit.toNat = others.length)
    (hindex : shift index point 1 < limit) :
    index.toNat < entries.length ∧ (shift index point 1).toNat < others.length ∧
      shift index point 1 ≠ point ∧
      others[(shift index point 1).toNat]? = entries[index.toNat]? := by
  have hfront : (entries.take point.toNat).length = point.toNat := List.length_take_of_le hpoint
  have hlength : others.length = entries.length + 1 := by
    rw [hothers, List.length_append, hfront, List.length_cons, List.length_drop]
    omega
  have hbelow := UInt32.lt_iff_toNat_lt.1 hindex
  by_cases hlt : index < point
  · have hnat := UInt32.lt_iff_toNat_lt.1 hlt
    rw [shift_of_lt hlt] at hbelow ⊢
    refine ⟨by omega, by omega, UInt32.ne_of_lt hlt, ?_⟩
    rw [hothers, List.getElem?_append_left (by omega), List.getElem?_take_of_lt hnat]
  · have hmoved := toNat_shift_of_shift_lt (UInt32.not_lt.1 hlt) hindex
    have hge := UInt32.le_iff_toNat_le.1 (UInt32.not_lt.1 hlt)
    refine ⟨by omega, by omega, ?_, ?_⟩
    · intro heq
      rw [heq] at hmoved
      omega
    · rw [hothers, hmoved, List.getElem?_append_right (by omega), hfront,
        Nat.sub_add_comm hge, List.getElem?_cons_succ, List.getElem?_drop,
        Nat.add_sub_cancel' hge]

end WasmMeter.Module
