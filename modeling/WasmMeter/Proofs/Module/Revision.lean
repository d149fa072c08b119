import WasmMeter.Gas.Reference
import WasmMeter.Proofs.Module.Contents
import WasmMeter.Proofs.Module.ReadBack
import WasmMeter.Proofs.Traversal

/-!
Revisions of modules. A step changes the contents of the section of one kind. After a chain of steps
for different kinds, every section is as it was or holds other contents of its kind, so a section
that counts as changed is one whose contents differ. What differs in contents differs in bytes too.
-/
namespace WasmMeter

open Reader

namespace Section

/-- The section is as it was, or it is of one of the kinds and holds other contents than before. -/
def Revised (kinds : List SectionKind) (s s' : Section) : Prop :=
  s' = s ∨ s.kind ∈ kinds ∧ ∃ payload : Payload, payload.kind = s.kind ∧ payload ≠ s.payload ∧
    s' = s.setPayload payload

variable {kinds first second : List SectionKind} {s s' s'' : Section}

theorem Revised.refl (kinds : List SectionKind) (s : Section) : s.Revised kinds s := .inl rfl

theorem Revised.kind_eq (h : s.Revised kinds s') : s'.kind = s.kind := by
  obtain rfl | ⟨-, payload, hkind, -, rfl⟩ := h
  · rfl
  · exact hkind

theorem Revised.source_eq (h : s.Revised kinds s') : s'.source = s.source := by
  obtain rfl | ⟨-, payload, -, -, rfl⟩ := h
  · rfl
  · exact source_setPayload s payload

theorem Revised.bounds?_eq (h : s.Revised kinds s') : s'.bounds? = s.bounds? := by
  obtain rfl | ⟨-, payload, -, -, rfl⟩ := h
  · rfl
  · exact bounds?_setPayload s payload

theorem Revised.eq_of_notMem (h : s.Revised kinds s') (hkind : s.kind ∉ kinds) : s' = s := by
  obtain rfl | ⟨hmem, -⟩ := h
  · rfl
  · exact absurd hmem hkind

/-- A section is written from its contents if it was before or if they differ, and only then. -/
theorem Revised.isChanged_eq_false_iff (h : s.Revised kinds s') :
    s'.isChanged = false ↔ s.isChanged = false ∧ s'.payload = s.payload := by
  obtain rfl | ⟨-, payload, -, hne, rfl⟩ := h
  · exact ⟨fun hchanged => ⟨hchanged, rfl⟩, fun h => h.1⟩
  · rw [isChanged_setPayload]
    exact iff_of_false Bool.noConfusion fun h => hne h.2

/-- Steps for different kinds do not undo one another. -/
theorem Revised.trans (hdisjoint : ∀ kind ∈ first, kind ∉ second) (h : s.Revised first s')
    (h' : s'.Revised second s'') : s.Revised (first ++ second) s'' := by
  have hkind := h.kind_eq
  obtain rfl | ⟨hmem, hpayload⟩ := h
  · obtain heq | ⟨hmem, hpayload⟩ := h'
    · exact .inl heq
    · exact .inr ⟨List.mem_append_right _ hmem, hpayload⟩
  · obtain rfl := h'.eq_of_notMem (hkind ▸ hdisjoint _ hmem)
    exact .inr ⟨List.mem_append_left _ hmem, hpayload⟩

/-- Sections that are written with the same bytes hold the same contents. -/
theorem clearOffsets_eq_of_canonical {start : Nat} (h : s.IsReadAt start)
    (hentries : s'.kind.EntriesWellFormed s'.payload.contents) (heq : s'.canonical = s.source) :
    s'.payload.clearOffsets = s.payload.clearOffsets := by
  obtain ⟨size, contents, hlength, hsize, hpayload, horigin⟩ := h
  have hsource : s.source = s.kind.toByte :: (size ++ contents) := by rw [source, horigin]
  rw [hsource, canonical, List.cons.injEq] at heq
  obtain ⟨hbyte, hbytes⟩ := heq
  have hkind : s'.kind = s.kind := SectionKind.toByte_inj hbyte
  -- Both lengths are read where the bytes begin, and leave the same bytes behind them.
  obtain ⟨-, -, hcontents⟩ := hsize.eq_of_append (reads_uint32 _) hbytes.symm
  have hwell : s'.payload.WellFormed := ⟨hentries, hcontents ▸ hlength⟩
  obtain ⟨d, hback, -⟩ := exhausts_payload hwell (start + 1 + size.length)
  obtain ⟨d', hread', -⟩ := hpayload
  have hkind' : s'.payload.kind = s.kind := hkind
  rw [hkind', ← hcontents, hread'] at hback
  injection hback with hplaced
  rw [hplaced, Payload.clearOffsets_place]

/-- Outside the code, a section is written with the bytes that it was read from only if its contents
are what they were. -/
theorem Revised.toBytes_eq_source_iff (h : s.Revised kinds s') (hcode : s.kind ≠ .code)
    (hread : s.isChanged = false → ∃ start, s.IsReadAt start)
    (hbuilt : s.isChanged = true → s.source = [])
    (hentries : s'.kind.EntriesWellFormed s'.payload.contents) :
    s'.toBytes = s.source ↔ s'.isChanged = false := by
  cases hchanged : s'.isChanged with
  | false =>
      rw [toBytes, hchanged]
      exact iff_of_true h.source_eq rfl
  | true =>
      rw [toBytes, if_pos hchanged]
      refine iff_of_false (fun hbytes => ?_) Bool.noConfusion
      cases hc : s.isChanged with
      | true =>
          rw [hbuilt hc] at hbytes
          cases hbytes
      | false =>
          obtain ⟨start, hframe⟩ := hread hc
          have hsame := clearOffsets_eq_of_canonical hframe hentries hbytes
          have hcode' : s'.payload.kind ≠ .code := fun hkind => hcode (h.kind_eq.symm.trans hkind)
          rw [Payload.clearOffsets, Payload.modify_of_ne hcode', Payload.clearOffsets,
            Payload.modify_of_ne hcode] at hsame
          rw [h.isChanged_eq_false_iff.2 ⟨hc, hsame⟩] at hchanged
          cases hchanged

end Section

namespace Module

variable {m between other : Module} {kind : SectionKind} {kinds first second : List SectionKind}

/-- What holds between the sections before and after the contents of a kind were changed. -/
theorem forall₂_sections_modify {R : Section → Section → Prop}
    {change : kind.Contents → kind.Contents}
    (hkept : ∀ i s, m.sections[i]? = some s → m.position? kind ≠ some i → R s s)
    (hchanged : ∀ i s, m.sections[i]? = some s → m.position? kind = some i →
      R s (s.setPayload (s.payload.modify kind change))) :
    List.Forall₂ R m.sections (m.modify kind change).sections := by
  have hlength := congrArg List.length (kinds_modify (m := m) change)
  rw [Module.kinds, Module.kinds, List.length_map, List.length_map] at hlength
  refine List.forall₂_iff_get.2 ⟨hlength.symm, fun i hi hi' => ?_⟩
  have hbefore : m.sections[i]? = some (m.sections.get ⟨i, hi⟩) := List.getElem?_eq_getElem hi
  have hafter := getElem?_sections_modify (m := m) change i
  rw [List.getElem?_eq_getElem hi', hbefore] at hafter
  by_cases hposition : m.position? kind = some i
  · rw [if_pos hposition, Option.map_some] at hafter
    show R _ (m.modify kind change).sections[i]
    rw [Option.some.inj hafter]
    exact hchanged i _ hbefore hposition
  · rw [if_neg hposition] at hafter
    show R _ (m.modify kind change).sections[i]
    rw [Option.some.inj hafter]
    exact hkept i _ hbefore hposition

/-- Every section is as it was, or it is of one of the kinds and holds other contents. -/
def Revised (kinds : List SectionKind) (m other : Module) : Prop :=
  List.Forall₂ (Section.Revised kinds) m.sections other.sections

theorem Revised.refl (kinds : List SectionKind) (m : Module) : m.Revised kinds m :=
  List.forall₂_same.2 fun s _ => Section.Revised.refl kinds s

/-- Two revisions of disjoint kinds make one: no section is revised twice, so a change cannot be taken
back. -/
theorem Revised.trans (h : m.Revised first between) (h' : between.Revised second other)
    (hdisjoint : ∀ kind ∈ first, kind ∉ second) : m.Revised (first ++ second) other :=
  forall₂_trans h h' fun _ _ _ => Section.Revised.trans hdisjoint

/-- A change that makes other contents is a revision. -/
theorem revised_modify {change : kind.Contents → kind.Contents}
    (h : ∀ contents, m.contents? kind = some contents → change contents ≠ contents) :
    m.Revised [kind] (m.modify kind change) := by
  refine forall₂_sections_modify (fun _ s _ _ => .refl _ s) fun i s hs hposition => ?_
  obtain ⟨contents, hpayload, hcontents⟩ := payload_eq_of_position? hs hposition
  have hkind : s.kind = kind := congrArg Payload.kind hpayload
  refine .inr ⟨List.mem_singleton.2 hkind, _, Payload.kind_modify _ _ _, ?_, rfl⟩
  rw [hpayload, Payload.modify_mk]
  intro heq
  exact h contents hcontents (eq_of_heq (Payload.mk.inj heq).2)

/-- An adjustment that leaves the contents the same leaves the section alone. -/
theorem revised_adjust {change : kind.Contents → Except Error kind.Contents}
    (h : m.adjust kind change = .ok other) : m.Revised [kind] other := by
  unfold adjust at h
  cases hc : m.contents? kind with
  | none =>
      simp only [hc] at h
      obtain rfl := ok_of_pure_iff.1 h
      exact .refl _ m
  | some contents =>
      simp only [hc] at h
      obtain ⟨changed, -, h⟩ := ok_of_bind_iff.1 h
      split at h
      · obtain rfl := ok_of_pure_iff.1 h
        exact .refl _ m
      · next hne =>
        obtain rfl := ok_of_pure_iff.1 h
        refine revised_modify fun contents' hc' => ?_
        rw [hc, Option.some.injEq] at hc'
        exact hc' ▸ hne

/-- The move of the references revises at most the four kinds of section that hold any. -/
theorem revised_mapReferences {f : UInt32 → UInt32} (h : m.mapReferences f = .ok other) :
    m.Revised [.exports, .start, .elements, .globals] other := by
  obtain ⟨first, hexports, h⟩ := ok_of_bind_iff.1 h
  obtain ⟨second, hstart, h⟩ := ok_of_bind_iff.1 h
  obtain ⟨third, helements, hglobals⟩ := ok_of_bind_iff.1 h
  exact (((revised_adjust hexports).trans (revised_adjust hstart) (by decide)).trans
    (revised_adjust helements) (by decide)).trans (revised_adjust hglobals) (by decide)

end Module

end WasmMeter
