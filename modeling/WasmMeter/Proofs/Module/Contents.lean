import Mathlib.Data.List.Induction
import WasmMeter.Module.Lemmas

/-!
The contents that a module has of a kind, as a function of the list of its sections alone: those of
the last section of the kind. Sections of other kinds do not matter, so a new section is seen under
its own kind only.
-/
namespace WasmMeter.Module

variable {m : Module} {kind : SectionKind}

theorem positions_concat (sections : List Section) (s : Section) (kind : SectionKind) :
    positions ⟨sections ++ [s]⟩ kind =
      positions ⟨sections⟩ kind ++ if s.kind = kind then [sections.length] else [] := by
  by_cases h : s.kind = kind <;> simp [positions, List.zipIdx_append, h]

/-- The index of a kind points into the sections. -/
theorem position?_lt {position : Nat} (h : m.position? kind = some position) :
    position < m.sections.length := by
  have hk := (position?_eq_some_iff.1 h).1
  obtain ⟨hlt, -⟩ := List.getElem?_eq_some_iff.1 hk
  simpa [kinds] using hlt

/-- At the position of a kind there is a section of that kind. -/
theorem exists_of_position? {position : Nat} (h : m.position? kind = some position) :
    ∃ s, m.sections[position]? = some s ∧ s.kind = kind := by
  have hk := (position?_eq_some_iff.1 h).1
  rw [kinds, List.getElem?_map] at hk
  exact Option.map_eq_some_iff.1 hk

/-- The section that the index points at holds the contents of the kind. -/
theorem payload_eq_of_position? {i : Nat} {s : Section} (hs : m.sections[i]? = some s)
    (hposition : m.position? kind = some i) :
    ∃ contents, s.payload = ⟨kind, contents⟩ ∧ m.contents? kind = some contents := by
  obtain ⟨⟨⟨_, contents⟩, origin⟩, hs', rfl⟩ := exists_of_position? hposition
  obtain rfl := Option.some.inj (hs.symm.trans hs')
  exact ⟨contents, rfl, contents?_eq_some_iff.2 ⟨i, _, hposition, hs, rfl⟩⟩

/-- The contents of a kind are those of the last section of that kind. -/
theorem contents?_eq_getLast? (m : Module) (kind : SectionKind) :
    m.contents? kind =
      (m.sections.filterMap fun s => s.payload.contents? kind).getLast? := by
  obtain ⟨sections⟩ := m
  induction sections using List.reverseRecOn with
  | nil => rfl
  | append_singleton sections s ih =>
      by_cases h : s.kind = kind
      · obtain ⟨⟨other, contents⟩, origin⟩ := s
        obtain rfl : kind = other := h.symm
        have hp : position? ⟨sections ++ [⟨⟨kind, contents⟩, origin⟩]⟩ kind =
            some sections.length := by
          simp [position?, positions_concat, Section.kind]
        have hc : Payload.contents? kind ⟨kind, contents⟩ = some contents :=
          Payload.contents?_mk kind contents
        rw [List.filterMap_append, List.filterMap_cons, hc]
        simp [contents?, hp]
      · have hp : position? ⟨sections ++ [s]⟩ kind = position? ⟨sections⟩ kind := by
          simp [position?, positions_concat, h]
        have hc : s.payload.contents? kind = none := Payload.contents?_eq_none h
        rw [List.filterMap_append, List.filterMap_cons, hc, List.filterMap_nil,
          List.append_nil, ← ih]
        cases hq : position? ⟨sections⟩ kind with
        | none => simp [contents?, hp, hq]
        | some position =>
            have hlt := position?_lt hq
            simp only [contents?, hp, hq, Option.bind_eq_bind, Option.bind_some]
            rw [List.getElem?_append_left hlt]

theorem contents?_insert_of_ne (position : Nat) {s : Section} (h : s.kind ≠ kind) :
    (m.insert position s).contents? kind = m.contents? kind := by
  have hc : s.payload.contents? kind = none := Payload.contents?_eq_none h
  rw [contents?_eq_getLast?, contents?_eq_getLast?, insert, List.filterMap_append,
    List.filterMap_cons, hc, ← List.filterMap_append, List.take_append_drop]

/-- A section inserted where none of its kind was becomes the one that is looked up. -/
theorem contents?_insert_self (position : Nat) {contents : kind.Contents}
    (h : m.contents? kind = none) :
    (m.insert position (.build ⟨kind, contents⟩)).contents? kind = some contents := by
  rw [contents?_eq_getLast?, List.getLast?_eq_none_iff] at h
  have hdrop : (m.sections.drop position).filterMap (fun s => s.payload.contents? kind) = [] := by
    rw [← List.take_append_drop position m.sections, List.filterMap_append,
      List.append_eq_nil_iff] at h
    exact h.2
  have hc : (Section.build ⟨kind, contents⟩).payload.contents? kind = some contents :=
    Payload.contents?_mk kind contents
  rw [contents?_eq_getLast?, insert, List.filterMap_append, List.filterMap_cons, hc, hdrop]
  exact List.getLast?_concat

theorem isSome_position? : (m.position? kind).isSome = (m.contents? kind).isSome := by
  cases h : m.contents? kind with
  | none => rw [contents?_eq_none_iff.1 h]; rfl
  | some contents =>
      obtain ⟨position, -, hp, -⟩ := contents?_eq_some_iff.1 h
      rw [hp]; rfl

theorem isSome_position?_iff : (m.position? kind).isSome = true ↔ kind ∈ m.kinds := by
  rw [← not_iff_not, Bool.not_eq_true, Option.isSome_eq_false_iff, Option.isNone_iff_eq_none,
    position?_eq_none_iff]

/-- A section that is put in where there is none of its kind supplies contents, and changes none. -/
theorem contents?_anchor (m : Module) (kind : SectionKind) (position : Nat)
    (contents : kind.Contents) :
    (if (m.position? kind).isSome then m
      else m.insert position (.build ⟨kind, contents⟩)).contents? kind =
        some ((m.contents? kind).getD contents) ∧
      ∀ k, k ≠ kind →
        (if (m.position? kind).isSome then m
          else m.insert position (.build ⟨kind, contents⟩)).contents? k = m.contents? k := by
  rw [isSome_position?]
  cases h : m.contents? kind with
  | none => exact ⟨contents?_insert_self position h, fun k hk => contents?_insert_of_ne _ hk.symm⟩
  | some present => exact ⟨h, fun k _ => rfl⟩

/-- Only what is made of the contents that there are matters. -/
theorem modify_congr {change change' : kind.Contents → kind.Contents}
    (h : ∀ contents, m.contents? kind = some contents → change contents = change' contents) :
    m.modify kind change = m.modify kind change' := by
  refine ext_getElem? fun i => ?_
  rw [getElem?_sections_modify, getElem?_sections_modify]
  split
  · next hposition =>
    cases hs : m.sections[i]? with
    | none => rfl
    | some s =>
        obtain ⟨contents, hpayload, hcontents⟩ := payload_eq_of_position? hs hposition
        rw [Option.map_some, Option.map_some, hpayload, Payload.modify_mk, Payload.modify_mk,
          h contents hcontents]
  · rfl

end WasmMeter.Module
