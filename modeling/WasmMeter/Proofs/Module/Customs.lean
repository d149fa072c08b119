import WasmMeter.Proofs.Module.Contents

/-!
Modules without their custom sections. The position of every other kind is counted anew, but what stands
there is the same section, so looking up contents and changing them is the same before and after custom
sections are left out, and never touches a custom section.
-/
namespace WasmMeter.Module

variable {m : Module} {kind : SectionKind}

/-- The module with its custom sections left out. -/
def withoutCustoms (m : Module) : Module := ⟨m.sections.filter (·.kind ≠ .custom)⟩

/-- The custom sections alone, in order. -/
def customSections (m : Module) : List Section := m.sections.filter (·.kind = .custom)

/-! ### The section that counts -/

theorem position?_of_split {before after : List Section} {s : Section} (hs : s.kind = kind)
    (hafter : ∀ t ∈ after, t.kind ≠ kind) :
    position? ⟨before ++ s :: after⟩ kind = some before.length := by
  refine position?_eq_some_iff.2 ⟨?_, fun i hi => ?_⟩
  · simp [kinds, hs]
  · by_contra hlt
    obtain ⟨k, rfl⟩ : ∃ k, i = before.length + (k + 1) := ⟨i - before.length - 1, by omega⟩
    rw [kinds, List.getElem?_map, List.getElem?_append_right (by omega), Nat.add_sub_cancel_left,
      List.getElem?_cons_succ, Option.map_eq_some_iff] at hi
    obtain ⟨t, ht, hkind⟩ := hi
    exact hafter t (List.mem_of_getElem? ht) hkind

/-- The section of a kind that counts is the last one of the kind. -/
theorem exists_split {position : Nat} (h : m.position? kind = some position) :
    ∃ before s after, m = ⟨before ++ s :: after⟩ ∧ before.length = position ∧ s.kind = kind ∧
      ∀ t ∈ after, t.kind ≠ kind := by
  obtain ⟨s, hs, hkind⟩ := exists_of_position? h
  obtain ⟨hlt, rfl⟩ := List.getElem?_eq_some_iff.1 hs
  refine ⟨m.sections.take position, m.sections[position], m.sections.drop (position + 1), ?_,
    List.length_take_of_le (Nat.le_of_lt hlt), hkind, fun t ht hkind => ?_⟩
  · rw [← List.drop_eq_getElem_cons hlt, List.take_append_drop]
  · obtain ⟨i, hi⟩ := List.mem_iff_getElem?.1 ht
    rw [List.getElem?_drop] at hi
    have hmax := (position?_eq_some_iff.1 h).2 (position + 1 + i)
      (by rw [kinds, List.getElem?_map, hi, Option.map_some, hkind])
    omega

/-- A change is made in the last section of the kind. -/
theorem modify_of_split {before after : List Section} {s : Section} (hs : s.kind = kind)
    (hafter : ∀ t ∈ after, t.kind ≠ kind) (change : kind.Contents → kind.Contents) :
    modify ⟨before ++ s :: after⟩ kind change =
      ⟨before ++ s.setPayload (s.payload.modify kind change) :: after⟩ := by
  unfold modify
  rw [position?_of_split hs hafter]
  simp [List.modify_eq_take_cons_drop]

/-! ### Leaving custom sections out -/

theorem mem_withoutCustoms {s : Section} :
    s ∈ m.withoutCustoms.sections ↔ s ∈ m.sections ∧ s.kind ≠ .custom := by
  rw [withoutCustoms, List.mem_filter, decide_eq_true_iff]

/-- Taking out the custom sections works on each side of a section that stays. -/
theorem withoutCustoms_split (before after : List Section) {s : Section} (hs : s.kind ≠ .custom) :
    withoutCustoms ⟨before ++ s :: after⟩ =
      ⟨(withoutCustoms ⟨before⟩).sections ++ s :: (withoutCustoms ⟨after⟩).sections⟩ := by
  simp [withoutCustoms, hs]

theorem customSections_split (before after : List Section) {s : Section} (hs : s.kind ≠ .custom) :
    customSections ⟨before ++ s :: after⟩ = customSections ⟨before ++ after⟩ := by
  simp [customSections, hs]

theorem position?_withoutCustoms_eq_none_iff (hkind : kind ≠ .custom) :
    m.withoutCustoms.position? kind = none ↔ m.position? kind = none := by
  rw [position?_eq_none_iff, position?_eq_none_iff, kinds, kinds, not_iff_not, List.mem_map,
    List.mem_map]
  refine exists_congr fun s => ?_
  rw [mem_withoutCustoms]
  constructor
  · rintro ⟨hs, h⟩
    exact ⟨hs.1, h⟩
  · rintro ⟨hs, h⟩
    exact ⟨⟨hs, h ▸ hkind⟩, h⟩

/-- The contents of every other kind are found as before. -/
theorem contents?_withoutCustoms (hkind : kind ≠ .custom) :
    m.withoutCustoms.contents? kind = m.contents? kind := by
  rw [contents?_eq_getLast?, contents?_eq_getLast?, withoutCustoms, List.filterMap_filter]
  refine congrArg (fun find => (m.sections.filterMap find).getLast?) (funext fun s => ?_)
  by_cases hs : s.kind = .custom
  · have hne : s.payload.kind ≠ kind := fun h => hkind (h.symm.trans hs)
    rw [if_neg (by simp [hs]), Payload.contents?_eq_none hne]
  · rw [if_pos (decide_eq_true hs)]

/-- Changing contents and leaving custom sections out can be done in either order. -/
theorem withoutCustoms_modify (hkind : kind ≠ .custom) (change : kind.Contents → kind.Contents) :
    (m.modify kind change).withoutCustoms = m.withoutCustoms.modify kind change := by
  cases hposition : m.position? kind with
  | none =>
      have hnone := (position?_withoutCustoms_eq_none_iff hkind).2 hposition
      rw [modify, modify, hposition, hnone]
  | some position =>
      obtain ⟨before, s, after, rfl, -, rfl, hafter⟩ := exists_split hposition
      have hkept : (s.setPayload (s.payload.modify s.kind change)).kind ≠ .custom :=
        fun h => hkind ((Payload.kind_modify _ _ _).symm.trans h)
      rw [modify_of_split rfl hafter, withoutCustoms_split _ _ hkept,
        withoutCustoms_split _ _ hkind, modify_of_split rfl]
      exact fun t ht => hafter t (mem_withoutCustoms.1 ht).1

/-- A change of other contents leaves the custom sections alone. -/
theorem customSections_modify (hkind : kind ≠ .custom) (change : kind.Contents → kind.Contents) :
    (m.modify kind change).customSections = m.customSections := by
  cases hposition : m.position? kind with
  | none => rw [modify, hposition]
  | some position =>
      obtain ⟨before, s, after, rfl, -, rfl, hafter⟩ := exists_split hposition
      have hkept : (s.setPayload (s.payload.modify s.kind change)).kind ≠ .custom :=
        fun h => hkind ((Payload.kind_modify _ _ _).symm.trans h)
      rw [modify_of_split rfl hafter, customSections_split _ _ hkept,
        customSections_split _ _ hkind]

end WasmMeter.Module
