import WasmMeter.Module

/-!
Looking up and changing sections. Both are decided by the kinds of the sections alone: the position
of a kind is the last one at which it stands, and a change of contents keeps every kind in its place,
so it is seen under its own kind and under no other.
-/
namespace WasmMeter

namespace Section

@[simp] theorem isChanged_setPayload (s : Section) (payload : Payload) :
    (s.setPayload payload).isChanged = true := by
  cases h : s.origin <;> simp [setPayload, isChanged, h]

/-- New contents leave the source as it was. -/
@[simp] theorem source_setPayload (s : Section) (payload : Payload) :
    (s.setPayload payload).source = s.source := by
  cases h : s.origin <;> simp [setPayload, source, h]

@[simp] theorem bounds?_setPayload (s : Section) (payload : Payload) :
    (s.setPayload payload).bounds? = s.bounds? := by
  cases h : s.origin <;> simp [setPayload, bounds?, h]

@[simp] theorem setPayload_setPayload (s : Section) (payload other : Payload) :
    (s.setPayload payload).setPayload other = s.setPayload other := by
  obtain ⟨_, origin⟩ := s
  cases origin <;> rfl

end Section

namespace Payload

/-- Two changes of the same kind are one change. -/
theorem modify_modify_self (payload : Payload) {kind : SectionKind}
    (change change' : kind.Contents → kind.Contents) :
    (payload.modify kind change).modify kind change' = payload.modify kind (change' ∘ change) := by
  obtain ⟨other, contents⟩ := payload
  by_cases h : other = kind
  · subst h
    rw [modify_mk, modify_mk, modify_mk]
    rfl
  · simp [modify, h]

@[simp] theorem kind_modify (kind : SectionKind) (change : kind.Contents → kind.Contents)
    (payload : Payload) : (payload.modify kind change).kind = payload.kind := by
  unfold modify
  split
  · next h => exact h.symm
  · rfl

/-- A payload has contents of a kind exactly when it is of the kind and holds them. -/
theorem contents?_eq_some_iff {kind : SectionKind} {payload : Payload} {contents : kind.Contents} :
    payload.contents? kind = some contents ↔ payload = ⟨kind, contents⟩ := by
  constructor
  · intro h
    by_cases hk : payload.kind = kind
    · subst hk; simp [contents?] at h; rw [← h]
    · simp [contents?_eq_none hk] at h
  · rintro rfl; simp

end Payload

namespace Module

/-- The kinds of the sections, in order. -/
def kinds (m : Module) : List SectionKind := m.sections.map Section.kind

variable {m : Module} {kind : SectionKind} {position : Nat}

/-- The positions of a kind are where the list of kinds has it. -/
theorem mem_positions : position ∈ m.positions kind ↔ m.kinds[position]? = some kind := by
  simp [positions, kinds, List.mem_zipIdx_iff_getElem?]

theorem pairwise_positions (m : Module) (kind : SectionKind) :
    (m.positions kind).Pairwise (· < ·) := by
  have h : (m.sections.zipIdx.map (·.2)).Pairwise (· < ·) := by
    rw [List.zipIdx_map_snd]; exact List.pairwise_lt_range'
  exact h.sublist (List.filter_sublist.map _)

/-- A kind has no position exactly when no section is of the kind. -/
theorem position?_eq_none_iff : m.position? kind = none ↔ kind ∉ m.kinds := by
  rw [position?, List.getLast?_eq_none_iff, List.eq_nil_iff_forall_not_mem,
    List.mem_iff_getElem?, not_exists]
  exact forall_congr' fun i => not_congr mem_positions

/-- The position of a kind is the last one at which it stands. -/
theorem position?_eq_some_iff :
    m.position? kind = some position ↔
      m.kinds[position]? = some kind ∧ ∀ i, m.kinds[i]? = some kind → i ≤ position := by
  have hp := pairwise_positions m kind
  rw [position?, List.getLast?_eq_some_iff]
  constructor
  · rintro ⟨before, h⟩
    refine ⟨mem_positions.1 (by simp [h]), fun i hi => ?_⟩
    have hm := mem_positions.2 hi
    rw [h] at hm hp
    rcases List.mem_append.1 hm with hm | hm
    · exact Nat.le_of_lt ((List.pairwise_append.1 hp).2.2 i hm position (by simp))
    · simp at hm; omega
  · rintro ⟨hk, hmax⟩
    obtain ⟨before, behind, h⟩ := List.append_of_mem (mem_positions.2 hk)
    cases behind with
    | nil => exact ⟨before, h⟩
    | cons i behind =>
        have hi := hmax i (mem_positions.1 (by simp [h]))
        rw [h, List.pairwise_append] at hp
        have := (List.pairwise_cons.1 hp.2.1).1 i (by simp)
        omega

theorem position?_congr {other : Module} (h : m.kinds = other.kinds) :
    m.position? kind = other.position? kind := by
  ext position
  rw [position?_eq_some_iff, position?_eq_some_iff, h]

/-- A section at the position of its kind holds contents of that kind. -/
theorem contents?_eq_some_iff {contents : kind.Contents} :
    m.contents? kind = some contents ↔
      ∃ position s, m.position? kind = some position ∧ m.sections[position]? = some s ∧
        s.payload = ⟨kind, contents⟩ := by
  simp [contents?, Option.bind_eq_some_iff, Payload.contents?_eq_some_iff]

@[simp] theorem kinds_modify (change : kind.Contents → kind.Contents) :
    (m.modify kind change).kinds = m.kinds := by
  unfold modify
  split
  · apply List.ext_getElem?
    intro i
    simp only [kinds, List.getElem?_map, List.getElem?_modify]
    split <;> cases m.sections[i]? <;> simp [Section.kind, Section.setPayload]
  · rfl

/-- A change moves no section. -/
theorem position?_modify (change : kind.Contents → kind.Contents) (other : SectionKind) :
    (m.modify kind change).position? other = m.position? other :=
  position?_congr (kinds_modify change)

/-- Only the section at the position of the kind is changed. -/
theorem getElem?_sections_modify (change : kind.Contents → kind.Contents) (i : Nat) :
    (m.modify kind change).sections[i]? =
      if m.position? kind = some i then
        m.sections[i]?.map fun s => s.setPayload (s.payload.modify kind change)
      else m.sections[i]? := by
  unfold modify
  split
  · next position hp => simp only [List.getElem?_modify, hp, Option.some.injEq]; split <;> simp
  · next hp => simp [hp]

/-- There are contents of a kind as soon as there is a section of that kind. -/
theorem contents?_eq_none_iff : m.contents? kind = none ↔ m.position? kind = none := by
  constructor
  · intro h
    cases hp : m.position? kind with
    | none => rfl
    | some position =>
        have hk := (position?_eq_some_iff.1 hp).1
        simp only [kinds, List.getElem?_map, Option.map_eq_some_iff] at hk
        obtain ⟨s, hs, rfl⟩ := hk
        rw [contents?_eq_some_iff.2 ⟨position, s, hp, hs, rfl⟩] at h
        cases h
  · intro h
    simp [contents?, h]

/-- A change is seen in the contents of its kind. -/
theorem contents?_modify_self (change : kind.Contents → kind.Contents) :
    (m.modify kind change).contents? kind = (m.contents? kind).map change := by
  cases h : m.contents? kind with
  | none =>
      have hp := contents?_eq_none_iff.1 h
      simp only [modify, hp, h, Option.map_none]
  | some contents =>
      obtain ⟨position, s, hp, hs, hc⟩ := contents?_eq_some_iff.1 h
      refine contents?_eq_some_iff.2
        ⟨position, s.setPayload ⟨kind, change contents⟩, ?_, ?_, rfl⟩
      · rw [position?_modify, hp]
      · simp [modify, hp, hs, hc]

/-- The contents of any other kind are not changed. -/
theorem contents?_modify_of_ne {other : SectionKind} (h : other ≠ kind)
    (change : kind.Contents → kind.Contents) :
    (m.modify kind change).contents? other = m.contents? other := by
  cases hp : m.position? kind with
  | none => simp only [modify, hp]
  | some position =>
      cases hq : m.position? other with
      | none => rw [contents?_eq_none_iff.2 hq, contents?_eq_none_iff, position?_modify, hq]
      | some place =>
          have hne : position ≠ place := by
            rintro rfl
            have hk := (position?_eq_some_iff.1 hp).1
            rw [(position?_eq_some_iff.1 hq).1, Option.some.injEq] at hk
            exact h hk
          have hs : (m.modify kind change).sections[place]? = m.sections[place]? := by
            rw [getElem?_sections_modify, hp, if_neg (by simpa using hne)]
          simp [contents?, position?_modify, hq, hs]

theorem ext_getElem? {other : Module} (h : ∀ i : Nat, m.sections[i]? = other.sections[i]?) :
    m = other :=
  congrArg Module.mk (List.ext_getElem? h)

theorem modify_modify_self (change change' : kind.Contents → kind.Contents) :
    (m.modify kind change).modify kind change' = m.modify kind (change' ∘ change) := by
  refine ext_getElem? fun i => ?_
  rw [getElem?_sections_modify, getElem?_sections_modify, getElem?_sections_modify,
    position?_modify]
  split
  · rw [Option.map_map]
    congr 1
    funext s
    show (s.setPayload _).setPayload ((s.payload.modify kind change).modify kind change') = _
    rw [Section.setPayload_setPayload, Payload.modify_modify_self]
  · rfl

/-- Contents of different kinds are changed in either order. -/
theorem modify_modify_of_ne {other : SectionKind} (h : kind ≠ other)
    (change : kind.Contents → kind.Contents) (change' : other.Contents → other.Contents) :
    (m.modify kind change).modify other change' = (m.modify other change').modify kind change := by
  refine ext_getElem? fun i => ?_
  simp only [getElem?_sections_modify, position?_modify]
  by_cases hkind : m.position? kind = some i
  · have hother : m.position? other ≠ some i := by
      intro hother
      have hk := (position?_eq_some_iff.1 hkind).1
      rw [(position?_eq_some_iff.1 hother).1, Option.some.injEq] at hk
      exact h hk.symm
    rw [if_neg hother, if_pos hkind, if_pos hkind, if_neg hother]
  · rw [if_neg hkind, if_neg hkind]

end Module

end WasmMeter
