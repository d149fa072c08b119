import WasmMeter.Proofs.Metering.Reloading
import WasmMeter.Proofs.Metering.Rereading
import WasmMeter.Proofs.Module.Customs

/-!
Metering with and without custom sections. Leaving custom sections out can be done before each change
that metering makes or after it, so a module and the same module without them are metered side by side.
What is left of a metered module without its custom sections is the metered module that had none, byte
for byte, and its custom sections are the ones it had.
-/
namespace WasmMeter

open Metering

namespace Module

variable {m m' : Module}

theorem insert_of_split (before after : List Section) (s t : Section) :
    insert ⟨before ++ s :: after⟩ (before.length + 1) t = ⟨before ++ s :: t :: after⟩ := by
  simp [insert, List.take_length_add_append, List.drop_length_add_append]

theorem isSome_position?_withoutCustoms {kind : SectionKind} (hkind : kind ≠ .custom) :
    (m.withoutCustoms.position? kind).isSome = (m.position? kind).isSome := by
  rw [isSome_position?, isSome_position?, contents?_withoutCustoms hkind]

/-- A section of another kind is put in between the custom sections. -/
theorem customSections_insert {s : Section} (hs : s.kind ≠ .custom) (position : Nat) :
    (m.insert position s).customSections = m.customSections := by
  rw [insert, customSections_split _ _ hs, List.take_append_drop]

/-- A section that is put in behind another is put in behind it without the custom sections too. -/
theorem withoutCustoms_insert_behind {kind : SectionKind} (hkind : kind ≠ .custom) {position : Nat}
    (hposition : m.position? kind = some position) {s : Section} (hs : s.kind ≠ .custom) :
    ∃ place, m.withoutCustoms.position? kind = some place ∧
      (m.insert (position + 1) s).withoutCustoms = m.withoutCustoms.insert (place + 1) s := by
  obtain ⟨before, other, after, rfl, rfl, rfl, hafter⟩ := exists_split hposition
  have hbehind : withoutCustoms ⟨s :: after⟩ = _ := withoutCustoms_split [] after hs
  rw [insert_of_split, withoutCustoms_split before (s :: after) hkind, hbehind,
    withoutCustoms_split before after hkind]
  refine ⟨_, position?_of_split rfl fun t ht => hafter t (mem_withoutCustoms.1 ht).1, ?_⟩
  rw [insert_of_split]
  rfl

/-- Anchors are put in at the same places between the sections that are not custom ones. -/
theorem withoutCustoms_withAnchors (m : Module) :
    (withAnchors m).withoutCustoms = withAnchors m.withoutCustoms := by
  have htypes := (m.contents?_anchor .types 0 []).1
  have htyped : (if (m.position? .types).isSome then m
        else m.insert 0 (.build ⟨.types, []⟩)).withoutCustoms =
      if (m.withoutCustoms.position? .types).isSome then m.withoutCustoms
        else m.withoutCustoms.insert 0 (.build ⟨.types, []⟩) := by
    rw [isSome_position?_withoutCustoms (by decide)]
    split
    · rfl
    · exact withoutCustoms_split [] m.sections (by decide)
  unfold withAnchors
  dsimp only
  rw [← htyped]
  generalize (if (m.position? .types).isSome then m
    else m.insert 0 (.build ⟨.types, []⟩)) = typed at *
  obtain ⟨position, hposition⟩ : ∃ position, typed.position? .types = some position := by
    rw [← Option.isSome_iff_exists, isSome_position?, htypes]
    rfl
  obtain ⟨place, hplace, hinsert⟩ := withoutCustoms_insert_behind (by decide) hposition
    (s := .build ⟨.imports, []⟩) (by decide)
  rw [isSome_position?_withoutCustoms (by decide), hposition, hplace]
  split
  · rfl
  · exact hinsert

theorem customSections_withAnchors (m : Module) :
    (withAnchors m).customSections = m.customSections := by
  unfold withAnchors
  dsimp only
  split <;> split
  · rfl
  · exact customSections_insert (by decide) _
  · exact customSections_insert (by decide) _
  · rw [customSections_insert (by decide), customSections_insert (by decide)]

/-- Without its custom sections the module is written like the other one, and these are the custom
sections that it has. -/
structure StrippedAlike (customs : List Section) (m m' : Module) : Prop where
  others : m.withoutCustoms.WrittenAlike m'
  customs : m.customSections = customs

/-- Custom sections are neither looked at nor touched. -/
theorem StrippedAlike.simulation (customs : List Section) : Simulation (StrippedAlike customs) where
  contents h := by
    have hothers := h.others.alike.contentsAlike
    refine ⟨fun kind hcustom hcode => ?_, ?_⟩
    · rw [hothers.contents kind hcustom hcode, contents?_withoutCustoms hcustom]
    · rw [← contents?_withoutCustoms (by decide)]
      exact hothers.code
  anchors {m m'} h := by
    refine ⟨?_, (customSections_withAnchors m).trans h.customs⟩
    rw [withoutCustoms_withAnchors]
    exact h.others.withAnchors
  modify h _ hcustom hcode change := by
    refine ⟨?_, (customSections_modify hcustom change).trans h.customs⟩
    rw [withoutCustoms_modify hcustom]
    exact h.others.modify hcode change
  code h _ _ hbodies := by
    refine ⟨?_, (customSections_modify (by decide) _).trans h.customs⟩
    rw [withoutCustoms_modify (by decide)]
    exact h.others.modify_code hbodies

/-- Sections of modules that are written alike are left out alike. -/
theorem WrittenAlike.filter (h : m.WrittenAlike m') (p : SectionKind → Bool) :
    List.Forall₂ Section.WrittenAlike (m.sections.filter (p ·.kind))
      (m'.sections.filter (p ·.kind)) := by
  refine List.rel_filter (fun s s' hs => ?_) h
  show p s.kind = true ↔ p s'.kind = true
  rw [hs.kind_eq]

theorem WrittenAlike.withoutCustoms (h : m.WrittenAlike m') :
    m.withoutCustoms.WrittenAlike m'.withoutCustoms :=
  h.filter (fun kind => decide (kind ≠ .custom))

theorem WrittenAlike.customSections (h : m.WrittenAlike m') :
    List.Forall₂ Section.WrittenAlike m.customSections m'.customSections :=
  h.filter (fun kind => decide (kind = .custom))

/-- A module that is written like another fits if the other does. Custom sections do not matter. -/
theorem StrippedAlike.fits {customs : List Section} (h : m.StrippedAlike customs m')
    (hwell : ∀ s ∈ m.sections, s.payload.WellFormed) : m'.Fits := by
  have hlength : ∀ s ∈ m.withoutCustoms.sections, s.payload.toBytes.length < 2 ^ 32 :=
    fun s hs => (hwell s (mem_withoutCustoms.1 hs).1).length
  refine forall_mem_of_forall₂ h.others (fun s s' hs hlt _ => ?_) hlength
  rwa [Payload.toBytes_eq_of_clearOffsets hs.contents]

end Module

variable {input : List UInt8} {m : Module} {config : GasConfig}

end WasmMeter
