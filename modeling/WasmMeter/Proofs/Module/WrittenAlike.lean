import WasmMeter.Proofs.Module.Alike

/-!
Modules that are written alike: they hold the same contents up to the offsets of code, and each section
of one is written with the bytes of the section of the other in its place, whether these are the bytes
it was read from or made anew. A module is written like the one that is read back from it, and a
change that is made to both leaves them written alike.
-/
namespace WasmMeter

/-- Offsets are not written. -/
theorem Payload.toBytes_clearOffsets (payload : Payload) :
    payload.clearOffsets.toBytes = payload.toBytes := by
  obtain ⟨kind, contents⟩ := payload
  by_cases hk : kind = .code
  · subst hk
    rw [clearOffsets, modify_mk]
    show Bytes.vector FunctionBody.toBytes (contents.map FunctionBody.clearOffset) =
      Bytes.vector FunctionBody.toBytes contents
    rw [Bytes.vector, Bytes.vector, List.length_map, List.flatMap_map]
    rfl
  · rw [clearOffsets, modify_of_ne hk]

theorem Payload.toBytes_eq_of_clearOffsets {payload other : Payload}
    (h : other.clearOffsets = payload.clearOffsets) : other.toBytes = payload.toBytes := by
  rw [← toBytes_clearOffsets, h, toBytes_clearOffsets]

/-- Bodies that hold the same code are the same without offsets. -/
theorem FunctionBody.map_clearOffset_eq {bodies bodies' : List FunctionBody}
    (h : List.Forall₂ Alike bodies bodies') :
    bodies'.map clearOffset = bodies.map clearOffset := by
  rw [← List.forall₂_eq_eq_eq, List.forall₂_map_left_iff, List.forall₂_map_right_iff]
  refine h.flip.imp ?_
  rintro ⟨locals, code, offset⟩ ⟨_, _, offset'⟩ ⟨rfl, rfl⟩
  rfl

/-- Contents of a kind other than code are the same if they are the same without offsets. -/
theorem Payload.eq_of_clearOffsets {payload other : Payload} (hkind : payload.kind ≠ .code)
    (h : other.clearOffsets = payload.clearOffsets) : other = payload := by
  have hother : other.kind ≠ .code := by rwa [kind_eq_of_clearOffsets h]
  rwa [clearOffsets, clearOffsets, modify_of_ne hother, modify_of_ne hkind] at h

/-- The sections hold the same contents, up to the offsets of code, and are written as the same
bytes. -/
structure Section.WrittenAlike (s s' : Section) : Prop where
  contents : s'.payload.clearOffsets = s.payload.clearOffsets
  bytes : s'.toBytes = s.toBytes

namespace Section

variable {s s' : Section}

theorem WrittenAlike.refl (s : Section) : s.WrittenAlike s := ⟨rfl, rfl⟩

theorem WrittenAlike.kind_eq (h : s.WrittenAlike s') : s'.kind = s.kind :=
  Payload.kind_eq_of_clearOffsets h.contents

/-- Whatever the sections were, with the same contents they are written alike. -/
theorem writtenAlike_setPayload (s s' : Section) {payload payload' : Payload}
    (h : payload'.clearOffsets = payload.clearOffsets) :
    (s.setPayload payload).WrittenAlike (s'.setPayload payload') := by
  refine ⟨h, ?_⟩
  have hkind : payload'.kind = payload.kind := Payload.kind_eq_of_clearOffsets h
  rw [toBytes, toBytes, if_pos (isChanged_setPayload _ _), if_pos (isChanged_setPayload _ _)]
  show payload'.kind.toByte :: Bytes.counted payload'.toBytes =
    payload.kind.toByte :: Bytes.counted payload.toBytes
  rw [hkind, Payload.toBytes_eq_of_clearOffsets h]

/-- A section read back is written again with the same bytes. -/
theorem IsReadBack.writtenAlike {start : Nat} (h : s.IsReadBack start s') : s.WrittenAlike s' := by
  obtain ⟨_, _, -, -, -, hunchanged, -⟩ := h.frame.bounds
  refine ⟨h.contents, ?_⟩
  rw [toBytes, hunchanged, if_neg Bool.false_ne_true, h.source]

end Section

namespace Module

/-- Section by section, the modules are written alike. -/
def WrittenAlike (m m' : Module) : Prop :=
  List.Forall₂ Section.WrittenAlike m.sections m'.sections

theorem ReadBack.writtenAlike {m m' : Module} {start : Nat}
    (h : ReadBack start m.sections m'.sections) : m.WrittenAlike m' := by
  unfold WrittenAlike
  generalize m.sections = sections, m'.sections = sections' at h
  induction h with
  | nil => exact .nil
  | cons head _ ih => exact .cons head.writtenAlike ih

namespace WrittenAlike

variable {m m' : Module} {kind : SectionKind}

theorem alike (h : m.WrittenAlike m') : m.Alike m' := by
  rw [Alike, ← List.forall₂_eq_eq_eq, List.forall₂_map_left_iff, List.forall₂_map_right_iff]
  exact h.flip.imp fun s' s hs => hs.contents

/-- Modules written alike are written with the same bytes. -/
theorem toBytes_eq (h : m.WrittenAlike m') : m'.toBytes = m.toBytes := by
  unfold WrittenAlike at h
  rw [Module.toBytes, Module.toBytes]
  generalize m.sections = sections, m'.sections = sections' at h
  congr 1
  induction h with
  | nil => rfl
  | cons head _ ih => rw [List.flatMap_cons, List.flatMap_cons, head.bytes, ih]

theorem kinds_eq (h : m.WrittenAlike m') : m'.kinds = m.kinds := by
  rw [kinds, kinds, ← List.forall₂_eq_eq_eq, List.forall₂_map_left_iff, List.forall₂_map_right_iff]
  exact h.flip.imp fun s' s hs => hs.kind_eq

/-- The sections of a kind stand at the same positions. -/
theorem position?_eq (h : m.WrittenAlike m') (kind : SectionKind) :
    m'.position? kind = m.position? kind :=
  position?_congr h.kinds_eq

theorem insert (h : m.WrittenAlike m') (position : Nat) (s : Section) :
    (m.insert position s).WrittenAlike (m'.insert position s) :=
  List.rel_append (List.forall₂_take position h)
    (.cons (.refl s) (List.forall₂_drop position h))

/-- Both modules are given contents that are the same without offsets if they had such. -/
theorem modify_of_clearOffsets (h : m.WrittenAlike m')
    {change change' : kind.Contents → kind.Contents}
    (hchange : ∀ payload payload' : Payload, payload'.clearOffsets = payload.clearOffsets →
      (payload'.modify kind change').clearOffsets = (payload.modify kind change).clearOffsets) :
    (m.modify kind change).WrittenAlike (m'.modify kind change') := by
  unfold Module.modify
  rw [h.position?_eq]
  cases m.position? kind with
  | none => exact h
  | some position =>
      exact forall₂_modify h (fun s s' hs =>
        Section.writtenAlike_setPayload s s' (hchange _ _ hs.contents)) position

/-- The same change is made to contents other than code. -/
theorem modify (h : m.WrittenAlike m') (hkind : kind ≠ .code)
    (change : kind.Contents → kind.Contents) :
    (m.modify kind change).WrittenAlike (m'.modify kind change) := by
  refine h.modify_of_clearOffsets fun payload payload' hsame => ?_
  by_cases hk : payload.kind = kind
  · rw [Payload.eq_of_clearOffsets (hk ▸ hkind) hsame]
  · have hk' : payload'.kind ≠ kind := by rwa [Payload.kind_eq_of_clearOffsets hsame]
    rw [Payload.modify_of_ne hk, Payload.modify_of_ne hk', hsame]

/-- Both modules are given bodies that are the same without offsets. -/
theorem modify_code (h : m.WrittenAlike m') {bodies bodies' : List FunctionBody}
    (hbodies : List.Forall₂ FunctionBody.Alike bodies bodies') :
    (m.modify .code fun _ => bodies).WrittenAlike (m'.modify .code fun _ => bodies') := by
  refine h.modify_of_clearOffsets fun payload payload' hsame => ?_
  have hkind := Payload.kind_eq_of_clearOffsets hsame
  obtain ⟨kind, contents⟩ := payload
  obtain ⟨kind', contents'⟩ := payload'
  obtain rfl : kind' = kind := hkind
  by_cases hk : kind' = .code
  · subst hk
    rw [Payload.modify_mk, Payload.modify_mk, Payload.clearOffsets, Payload.clearOffsets,
      Payload.modify_mk, Payload.modify_mk, FunctionBody.map_clearOffset_eq hbodies]
  · rw [Payload.modify_of_ne hk, Payload.modify_of_ne hk, hsame]

end WrittenAlike

end Module

end WasmMeter
