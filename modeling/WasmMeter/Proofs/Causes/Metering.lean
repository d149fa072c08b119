import WasmMeter.Proofs.Causes.Sections
import WasmMeter.Proofs.Metering.Failure

/-!
Which errors each layer raises. Reading a module never complains of what only metering looks for, and
metering never of what only reading looks for; what is disassembled a second time was accepted the
first time, unless it is the code of a body, which is not looked at when it is read.
-/
namespace WasmMeter

open Reader Metering

/-! ### Code -/

/-- What code can be refused for: it is cut short, goes on behind its end, or is wrong in itself. -/
theorem Disassembly.kind_of_ofBytesAt {base : Nat} {code : List UInt8} {e : Error}
    (h : ofBytesAt base code = .error e) : e.kind ∈ [.truncatedBody, .trailingCode] ++ codeKinds := by
  obtain ⟨last, h⟩ := answer_eq_error_iff.1 h
  rcases bind_eq_error_iff.1 h with h | ⟨d, c, -, h⟩
  · rcases refuses_read _ _ _ h with hcut | ⟨hcode, -⟩
    · rw [hcut]
      decide
    · exact List.mem_append_right _ hcode
  · rcases bind_eq_error_iff.1 h with h | ⟨_, _, -, h⟩
    · obtain ⟨unread, start⟩ := c
      cases unread with
      | nil => cases h
      | cons next unread =>
          change (if Opcode.plain next = .elseArm ∨ Opcode.plain next = .ending then
              throw (.unmatchedBlockEnd start)
            else throw (.trailingCode start) : Reader Unit) _ = _ at h
          split at h <;> obtain ⟨rfl, -⟩ := throw_eq_error_iff.1 h <;>
            simp [codeKinds, Error.kind]
    · exact absurd h pure_ne_error

/-! ### Constant expressions -/

def ElementItems.constExprs : ElementItems → List ConstExpr
  | .indices _ => []
  | .expressions slots => slots

/-- The offset of a segment and its slots. -/
def ElementSegment.constExprs (segment : ElementSegment) : List ConstExpr :=
  segment.offset.toList ++ segment.items.constExprs

/-- The constant expressions in contents of a kind. -/
def SectionKind.constExprs : (kind : SectionKind) → kind.Contents → List ConstExpr
  | .globals, entries => List.map Global.init entries
  | .elements, segments => List.flatMap ElementSegment.constExprs segments
  | .data, segments => List.filterMap DataSegment.offset segments
  | _, _ => []

/-- Every constant expression of a module. -/
def Module.constExprs (m : Module) : List ConstExpr :=
  m.sections.flatMap fun s => s.kind.constExprs s.payload.contents

theorem ElementSegment.WellFormed.constExprs {segment : ElementSegment} (h : segment.WellFormed) :
    ∀ expression ∈ segment.constExprs, expression.WellFormed := by
  refine List.forall_mem_append.2 ⟨fun expression hoffset => ?_, ?_⟩
  · exact h.expression expression (Option.mem_toList.1 hoffset)
  · have hitems := h.items
    cases hslots : segment.items with
    | indices functions => exact List.forall_mem_nil _
    | expressions slots =>
        rw [hslots] at hitems
        exact hitems.2

/-- Well-formed entries hold well-formed expressions, in all places where there can be one. -/
theorem SectionKind.EntriesWellFormed.constExprs {kind : SectionKind} {contents : kind.Contents}
    (h : kind.EntriesWellFormed contents) :
    ∀ expression ∈ kind.constExprs contents, expression.WellFormed := by
  cases kind with
  | globals => exact List.forall_mem_map.2 h
  | elements =>
      intro expression hmem
      obtain ⟨segment, hsegment, hmem⟩ := List.mem_flatMap.1 hmem
      exact (h segment hsegment).constExprs expression hmem
  | data =>
      intro expression hmem
      obtain ⟨segment, hsegment, hoffset⟩ := List.mem_filterMap.1 hmem
      exact (h segment hsegment).expression expression hoffset
  | _ => exact List.forall_mem_nil _

/-- A well-formed expression is code, so its references can be found. -/
theorem ConstExpr.WellFormed.exists_references {expression : ConstExpr}
    (h : expression.WellFormed) : ∃ references, expression.references = .ok references := by
  cases hd : Disassembly.ofBytes expression.bytes with
  | error e => rw [WellFormed, hd] at h; cases h
  | ok d => exact ⟨d.references, ok_of_bind_iff.2 ⟨d, hd, rfl⟩⟩

namespace Module

variable {m : Module}

/-- Nothing that was done to an intact module has broken an expression. -/
theorem Intact.constExprs (h : m.Intact) :
    ∀ expression ∈ m.constExprs, expression.WellFormed := by
  intro expression hmem
  obtain ⟨s, hs, hmem⟩ := List.mem_flatMap.1 hmem
  exact SectionKind.EntriesWellFormed.constExprs (h.sections s hs).entries expression hmem

/-! ### Layers -/

/-- The modules that were read, and then metered any number of times. -/
inductive Remetered : Module → Prop where
  | read {input : List UInt8} {m : Module} (h : ofBytes input = .ok m) : Remetered m
  | metered {m : Module} {config : GasConfig} {costs : CostModel} {result : Metered}
      (h : Remetered m) (hmeter : m.meter config costs = .ok result) : Remetered result.module

/-- Metering again and again keeps a module intact. -/
theorem Remetered.intact (h : m.Remetered) : m.Intact := by
  induction h with
  | read h => exact intact_of_ofBytes h
  | metered _ hmeter ih => exact ih.meter hmeter

/-- Each layer reports its own kinds of errors. Reading never finds fault with bodies, their number or
an index, and runs out of bytes only in the header. Metering a module that was read, and metered any
number of times, fails for the module as a whole or for the first body that is no code, and then for
what is wrong with that code. Its constant expressions are always disassembled, so rewriting them
never fails, nor does looking for the references in what was rewritten; only an index can be out of
range. -/
theorem errors_of_layers :
    (∀ input e, ofBytes input = .error e →
      e.kind ∉ [.truncatedBody, .trailingCode, .noCodeSection, .functionCountMismatch,
        .indexOutOfRange] ∧
      (e.kind = .unexpectedEnd → input.length < 8)) ∧
    ∀ m : Module, m.Remetered →
      (∀ config costs e, m.meter config costs = .error e →
        e.kind ∈ [.noCodeSection, .functionCountMismatch, .indexOutOfRange] ∨
        ∃ bodies, m.contents? .code = some bodies ∧ FunctionBody.FirstRefused bodies e ∧
          e.kind ∉ [.unexpectedEnd, .malformedSection]) ∧
      (∀ expression ∈ m.constExprs,
        (∃ references, expression.references = .ok references) ∧
          ∀ f, ∃ other, expression.mapReferences f = .ok other) ∧
      ∀ config, ∃ moved,
        (extend m config).mapReferences (shift · m.insertionPoint 1) = .ok moved ∧
        ∀ costs metered, meterBodies moved costs m.insertionPoint = .ok metered →
          (∃ references, metered.functionReferences = .ok references) ∧
            ∀ e, checkModule metered = .error e → e.kind = .indexOutOfRange := by
  refine ⟨fun input e h => ?_, fun m hm => ⟨fun config costs e h => ?_, ?_, fun config => ?_⟩⟩
  · have hreading : ∀ kind ∈ readingKinds, kind ∉ [.truncatedBody, .trailingCode, .noCodeSection,
        .functionCountMismatch, .indexOutOfRange] ∧ kind ≠ .unexpectedEnd := by decide
    rcases kind_of_ofBytes h with hkind | ⟨hkind, hshort⟩
    · exact ⟨(hreading _ hkind).1, fun hend => absurd hend (hreading _ hkind).2⟩
    · exact ⟨by rw [hkind]; decide, fun _ => hshort⟩
  · refine (meter_eq_error hm.intact h).imp_right fun ⟨bodies, hcode, hrefused⟩ =>
      ⟨bodies, hcode, hrefused, ?_⟩
    have hcode : ∀ kind ∈ [.truncatedBody, .trailingCode] ++ Disassembly.codeKinds,
        kind ∉ [.unexpectedEnd, .malformedSection] := by decide
    obtain ⟨_, _, _, -, -, he⟩ := hrefused
    exact hcode _ (Disassembly.kind_of_ofBytesAt he)
  · intro expression hmem
    have hwell := hm.intact.constExprs expression hmem
    refine ⟨hwell.exists_references, fun f => ?_⟩
    obtain ⟨other, hother, -⟩ := hwell.exists_mapReferences f
    exact ⟨other, hother⟩
  · obtain ⟨moved, hmoved, -⟩ :=
      (intact_extend hm.intact config).exists_mapReferences (shift · m.insertionPoint 1)
    refine ⟨moved, hmoved, fun costs metered hmetered => ?_⟩
    have hrewritten := rewritten_of_meterBodies hmoved hmetered
    exact ⟨hrewritten.exists_functionReferences, fun e => hrewritten.kind_of_checkModule⟩

/-- A module whose only body lacks its terminator. -/
def unclosed : List UInt8 := [
  0x00, 0x61, 0x73, 0x6d, 0x01, 0x00, 0x00, 0x00,
  0x01, 0x04, 0x01, 0x60, 0x00, 0x00,
  0x03, 0x02, 0x01, 0x00,
  0x0a, 0x05, 0x01, 0x03, 0x00, 0x01, 0x01]

theorem errors_of_layers_unclosed :
    (∃ e, ofBytes (unclosed.take 6) = .error e ∧ e.kind = .unexpectedEnd ∧
      (unclosed.take 6).length < 8) ∧
    ∃ m e, ofBytes unclosed = .ok m ∧ m.Remetered ∧ m.meter .standard (.constant 1) = .error e ∧
      e.kind = .truncatedBody ∧
      (e.kind ∈ [.noCodeSection, .functionCountMismatch, .indexOutOfRange] ∨
        ∃ bodies, m.contents? .code = some bodies ∧ FunctionBody.FirstRefused bodies e ∧
          e.kind ∉ [.unexpectedEnd, .malformedSection]) := by
  have hshort : ofBytes (unclosed.take 6) = .error (.unexpectedEnd 4 2) := by decide +kernel
  have hrefused : (do
      let m ← ofBytes unclosed
      let _ ← m.meter .standard (.constant 1)
      return : Except Error Unit) = .error (.truncatedBody 25) := by decide +kernel
  refine ⟨⟨_, hshort, rfl, (errors_of_layers.1 _ _ hshort).2 rfl⟩, ?_⟩
  rcases error_of_bind_iff.1 hrefused with hread | ⟨m, hread, hrefused⟩
  · exact absurd List.mem_cons_self (errors_of_layers.1 _ _ hread).1
  · rcases error_of_bind_iff.1 hrefused with hmeter | ⟨_, -, hrefused⟩
    · exact ⟨m, _, hread, .read hread, hmeter, rfl,
        (errors_of_layers.2 m (.read hread)).1 _ _ _ hmeter⟩
    · cases hrefused

end Module

end WasmMeter
