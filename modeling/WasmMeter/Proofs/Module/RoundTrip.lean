import Mathlib.Data.List.Basic
import WasmMeter.Proofs.Module.Contents
import WasmMeter.Proofs.Module.Frames

/-!
A module that was read is written as it was found. Its sections tile the input behind the header, and
every offset that reading leaves behind, the bounds of sections and the offsets of code, is one of
the input, however deep the cursor was at which it was taken.
-/
namespace WasmMeter

/-- What is left to read stands in the input at the offset of the cursor. -/
def Cursor.LiesIn (input : List UInt8) (c : Cursor) : Prop :=
  ∃ front rest, input = front ++ (c.unread ++ rest) ∧ front.length = c.position

namespace Cursor.LiesIn

variable {input : List UInt8} {c d : Cursor}

theorem extract_eq (h : c.LiesIn input) :
    c.position + c.unread.length ≤ input.length ∧
      input.extract c.position (c.position + c.unread.length) = c.unread := by
  obtain ⟨front, rest, rfl, hfront⟩ := h
  rw [← hfront]
  constructor
  · rw [List.length_append, List.length_append]
    omega
  · rw [List.extract_eq_take_drop, List.drop_left, Nat.add_sub_cancel_left, List.take_left]

/-- Reading on does not leave the input. -/
theorem advance (h : c.LiesIn input) {bytes : List UInt8} (hu : c.unread = bytes ++ d.unread)
    (hd : d.position = c.position + bytes.length) : d.LiesIn input := by
  obtain ⟨front, rest, rfl, hfront⟩ := h
  refine ⟨front ++ bytes, rest, ?_, ?_⟩
  · rw [hu, List.append_assoc, List.append_assoc]
  · rw [List.length_append, hfront, hd]

/-- A window does not leave the input either. -/
theorem window (h : c.LiesIn input) {w : Cursor} {rest : List UInt8}
    (hu : c.unread = w.unread ++ rest) (hw : w.position = c.position) : w.LiesIn input := by
  obtain ⟨front, back, rfl, hfront⟩ := h
  refine ⟨front, rest ++ back, ?_, ?_⟩
  · rw [hu, List.append_assoc]
  · rw [hfront, hw]

end Cursor.LiesIn

namespace Reader

variable {α : Type} {input : List UInt8} {c d : Cursor}

theorem SelfDelimiting.liesIn {r : Reader α} (h : SelfDelimiting r) (hc : c.LiesIn input) {a : α}
    (hr : r c = .ok a d) : d.LiesIn input := by
  obtain ⟨bytes, hu, hd⟩ := h.advances hr
  exact hc.advance hu hd

/-- What holds of every item that is read in the input holds of all items of a sequence. -/
theorem forall_of_times {item : Reader α} {P : α → Prop}
    (h : ∀ c a d, c.LiesIn input → item c = .ok a d → P a ∧ d.LiesIn input) {n : Nat}
    {items : List α} (hc : c.LiesIn input) (hr : times n item c = .ok items d) :
    ∀ a ∈ items, P a := by
  induction n generalizing c items with
  | zero =>
      obtain ⟨rfl, -⟩ := pure_eq_ok_iff.1 hr
      exact List.forall_mem_nil P
  | succ n ih =>
      rw [times_succ] at hr
      obtain ⟨a, e, ha, hr⟩ := bind_eq_ok_iff.1 hr
      obtain ⟨rest, f, hrest, hr⟩ := bind_eq_ok_iff.1 hr
      obtain ⟨rfl, rfl⟩ := pure_eq_ok_iff.1 hr
      obtain ⟨hpa, he⟩ := h c a e hc ha
      exact List.forall_mem_cons.2 ⟨hpa, ih he hrest⟩

theorem selfDelimiting_localRun (kind : SectionKind) : SelfDelimiting (localRun kind) :=
  selfDelimiting_uint32.bind fun _ => (selfDelimiting_valueType _).bind fun _ =>
    selfDelimiting_pure _

/-- The code of a body stands in the input at its own offset. -/
theorem liesIn_functionBody {kind : SectionKind} {body : FunctionBody} (hc : c.LiesIn input)
    (h : functionBody kind c = .ok body d) :
    (Cursor.mk body.code body.codeOffset).LiesIn input ∧ d.LiesIn input := by
  rw [functionBody, sized_eq_ok_iff fun _ _ _ => Iff.rfl] at h
  obtain ⟨size, contents, rest, -, -, hu, h⟩ := h
  obtain ⟨⟨answer, left⟩, e, hwithin, h⟩ := bind_eq_ok_iff.1 h
  obtain ⟨hcontents, rfl⟩ := within_eq_ok_iff.1 hwithin
  obtain ⟨rfl, rfl⟩ := pure_eq_ok_iff.1 h
  obtain ⟨locals, f, hlocals, h⟩ := bind_eq_ok_iff.1 hcontents
  have hbehind : (Cursor.mk (contents ++ rest) (c.position + size.length)).LiesIn input :=
    hc.advance hu rfl
  have hinside : (Cursor.mk contents (c.position + size.length)).LiesIn input :=
    hbehind.window rfl rfl
  have hcode := (selfDelimiting_localRun kind).vector.liesIn hinside hlocals
  cases h
  exact ⟨hcode, hbehind.advance rfl rfl⟩

theorem liesIn_of_payload {kind : SectionKind} {contained : Payload} {bodies : List FunctionBody}
    (hc : c.LiesIn input) (h : payload kind c = .ok contained d)
    (hbodies : contained.contents? .code = some bodies) :
    ∀ body ∈ bodies, (Cursor.mk body.code body.codeOffset).LiesIn input := by
  obtain ⟨found, e, hfound, h⟩ := bind_eq_ok_iff.1 h
  obtain ⟨rfl, rfl⟩ := pure_eq_ok_iff.1 h
  by_cases hkind : kind = .code
  · subst hkind
    rw [Payload.contents?_mk, Option.some.injEq] at hbodies
    subst hbodies
    obtain ⟨n, f, hn, hitems⟩ := bind_eq_ok_iff.1 hfound
    exact forall_of_times (fun _ _ _ => liesIn_functionBody)
      (selfDelimiting_uint32.liesIn hc hn) hitems
  · rw [Payload.contents?_eq_none hkind] at hbodies
    cases hbodies

end Reader

open Reader

/-- A frame is the byte of a kind, a length, and contents, and the bounds of the section are those of
the contents. -/
theorem Section.IsReadAt.bounds {start : Nat} {s : Section} (h : s.IsReadAt start) :
    ∃ size contents, contents.length < 2 ^ 32 ∧ Reads uint32 size contents.length.toUInt32 ∧
      s.source = s.kind.toByte :: (size ++ contents) ∧ s.isChanged = false ∧
      s.bounds? = some (start + 1 + size.length, start + 1 + size.length + contents.length) ∧
      Exhausts (Reader.payload s.kind) ⟨contents, start + 1 + size.length⟩ s.payload := by
  obtain ⟨size, contents, hlength, hsize, hpayload, horigin⟩ := h
  refine ⟨size, contents, hlength, hsize, ?_, ?_, ?_, hpayload⟩
  · rw [source, horigin]
  · rw [isChanged, horigin]
  · rw [bounds?, horigin]

/-- A frame begins where those before it end. -/
theorem Module.Frames.isReadAt {rank : Option Nat} {start : Nat} {before after : List Section}
    {s : Section} (h : Frames rank start (before ++ s :: after)) :
    s.IsReadAt (start + (before.flatMap Section.source).length) := by
  induction before generalizing rank start with
  | nil =>
      cases h with
      | cons follows frame frames => exact frame
  | cons other before ih =>
      cases h with
      | cons follows frame frames =>
          rw [List.flatMap_cons, List.length_append, ← Nat.add_assoc]
          exact ih frames

namespace Module

variable {input : List UInt8} {m : Module}

/-- Every section of a module that was read is a frame of the input, in its place. -/
theorem isReadAt_of_ofBytes (h : Module.ofBytes input = .ok m) {before after : List Section}
    {s : Section} (hs : m.sections = before ++ s :: after) :
    s.IsReadAt (8 + (before.flatMap Section.source).length) ∧
      (Cursor.mk s.source (8 + (before.flatMap Section.source).length)).LiesIn input := by
  obtain ⟨rfl, hframes⟩ := ofBytes_eq_ok_iff.1 h
  rw [hs] at hframes ⊢
  refine ⟨hframes.isReadAt, header ++ before.flatMap Section.source,
    after.flatMap Section.source, ?_, ?_⟩
  · rw [List.flatMap_append, List.flatMap_cons, List.append_assoc]
  · rw [List.length_append]
    rfl

/-- The contents of a section are read where its bounds say that they are. -/
theorem bounds_of_ofBytes (h : Module.ofBytes input = .ok m) {before after : List Section}
    {s : Section} (hs : m.sections = before ++ s :: after) :
    ∃ size contents first, s.source = s.kind.toByte :: (size ++ contents) ∧
      contents.length < 2 ^ 32 ∧ Reads uint32 size contents.length.toUInt32 ∧
      first = 8 + (before.flatMap Section.source).length + 1 + size.length ∧
      s.bounds? = some (first, first + contents.length) ∧
      (Cursor.mk contents first).LiesIn input ∧
      Exhausts (Reader.payload s.kind) ⟨contents, first⟩ s.payload := by
  obtain ⟨hframe, hlies⟩ := isReadAt_of_ofBytes h hs
  obtain ⟨size, contents, hlength, hsize, hsource, -, hbounds, hpayload⟩ := hframe.bounds
  refine ⟨size, contents, _, hsource, hlength, hsize, rfl, hbounds, ?_, hpayload⟩
  have hunread : s.source = (s.kind.toByte :: size) ++ contents := hsource
  refine hlies.advance hunread ?_
  rw [List.length_cons, Nat.add_comm size.length, ← Nat.add_assoc]

theorem isChanged_of_ofBytes (h : Module.ofBytes input = .ok m) {s : Section}
    (hs : s ∈ m.sections) : s.isChanged = false := by
  obtain ⟨before, after, hsplit⟩ := List.append_of_mem hs
  obtain ⟨hframe, -⟩ := isReadAt_of_ofBytes h hsplit
  obtain ⟨_, _, -, -, -, hunchanged, -⟩ := hframe.bounds
  exact hunchanged

theorem toBytes_section_of_ofBytes (h : Module.ofBytes input = .ok m) {s : Section}
    (hs : s ∈ m.sections) : s.toBytes = s.source := by
  rw [Section.toBytes, isChanged_of_ofBytes h hs]
  rfl

/-- The code of a body lies in the input at the offset that the body has. -/
theorem liesIn_of_ofBytes (h : Module.ofBytes input = .ok m) {bodies : List FunctionBody}
    (hbodies : m.contents? .code = some bodies) :
    ∀ body ∈ bodies, (Cursor.mk body.code body.codeOffset).LiesIn input := by
  obtain ⟨position, s, -, hs, hpayload⟩ := contents?_eq_some_iff.1 hbodies
  obtain ⟨before, after, hsplit⟩ := List.append_of_mem (List.mem_of_getElem? hs)
  obtain ⟨size, contents, first, -, -, -, -, -, hlies, hexhausts⟩ := bounds_of_ofBytes h hsplit
  obtain ⟨d, hread, -⟩ := hexhausts
  exact liesIn_of_payload hlies hread (Payload.contents?_eq_some_iff.2 hpayload)

/-- A module that was read is written as it was found. The sources of its sections are the input
behind the header, the bounds of a section are those of its contents in the input, and the code of a
body stands in the input at the offset that the body has. -/
theorem toBytes_of_ofBytes (h : Module.ofBytes input = .ok m) :
    m.toBytes = input ∧ m.sections.flatMap Section.source = input.drop 8 ∧
      (∀ before s after, m.sections = before ++ s :: after →
        ∃ size contents first, s.source = s.kind.toByte :: (size ++ contents) ∧
          contents.length < 2 ^ 32 ∧ Reads uint32 size contents.length.toUInt32 ∧
          first = 8 + (before.flatMap Section.source).length + 1 + size.length ∧
          s.bounds? = some (first, first + contents.length) ∧
          first + contents.length ≤ input.length ∧
          input.extract first (first + contents.length) = contents ∧
          Exhausts (Reader.payload s.kind) ⟨contents, first⟩ s.payload) ∧
      ∀ bodies, m.contents? .code = some bodies → ∀ body ∈ bodies,
        body.codeOffset + body.code.length ≤ input.length ∧
          input.extract body.codeOffset (body.codeOffset + body.code.length) = body.code := by
  obtain ⟨hinput, -⟩ := ofBytes_eq_ok_iff.1 h
  have hsources : m.sections.flatMap Section.toBytes = m.sections.flatMap Section.source := by
    refine List.flatMap_congr fun s hs => ?_
    rw [Section.toBytes, isChanged_of_ofBytes h hs]
    rfl
  refine ⟨?_, ?_, ?_, ?_⟩
  · rw [toBytes, hsources, ← hinput]
  · rw [hinput]
    rfl
  · intro before s after hs
    obtain ⟨size, contents, first, hsource, hlength, hsize, hfirst, hbounds, hlies, hpayload⟩ :=
      bounds_of_ofBytes h hs
    obtain ⟨hle, hextract⟩ := hlies.extract_eq
    exact ⟨size, contents, first, hsource, hlength, hsize, hfirst, hbounds, hle, hextract, hpayload⟩
  · intro bodies hbodies body hbody
    exact (liesIn_of_ofBytes h hbodies body hbody).extract_eq

/-- A custom section in front of a module with one function. The length of the first section and the
number of bodies are longer than they have to be. -/
def padded : List UInt8 := [
  0x00, 0x61, 0x73, 0x6d, 0x01, 0x00, 0x00, 0x00,
  0x00, 0x83, 0x00, 0x01, 0x61, 0x2a,
  0x01, 0x04, 0x01, 0x60, 0x00, 0x00,
  0x03, 0x02, 0x01, 0x00,
  0x0a, 0x05, 0x81, 0x00, 0x02, 0x00, 0x0b]

theorem toBytes_of_ofBytes_padded :
    ∃ m, Module.ofBytes padded = .ok m ∧ m.toBytes = padded ∧
      m.sections.flatMap Section.source = padded.drop 8 ∧
      (∀ before s after, m.sections = before ++ s :: after →
        ∃ size contents first, s.source = s.kind.toByte :: (size ++ contents) ∧
          contents.length < 2 ^ 32 ∧ Reads uint32 size contents.length.toUInt32 ∧
          first = 8 + (before.flatMap Section.source).length + 1 + size.length ∧
          s.bounds? = some (first, first + contents.length) ∧
          first + contents.length ≤ padded.length ∧
          padded.extract first (first + contents.length) = contents ∧
          Exhausts (Reader.payload s.kind) ⟨contents, first⟩ s.payload) ∧
      ∀ bodies, m.contents? .code = some bodies → ∀ body ∈ bodies,
        body.codeOffset + body.code.length ≤ padded.length ∧
          padded.extract body.codeOffset (body.codeOffset + body.code.length) = body.code := by
  have hok : (Module.ofBytes padded).isOk = true := by decide +kernel
  cases h : Module.ofBytes padded with
  | error e => rw [h] at hok; cases hok
  | ok m => exact ⟨m, rfl, toBytes_of_ofBytes h⟩

end Module

end WasmMeter
