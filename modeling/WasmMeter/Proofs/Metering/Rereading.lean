import WasmMeter.Proofs.Metering.Insertion
import WasmMeter.Proofs.Module.Intact

/-!
A metered module is read back. Each change that metering makes keeps a module intact: new sections
stand where their ranks allow them, new entries are well-formed, and an expression is an expression
after its functions have been replaced. So the result can be read wherever its lengths can be written,
and refusing results that cannot be read refuses nothing else.
-/
namespace WasmMeter

namespace SectionKind

theorem one_le_of_rank? {kind : SectionKind} {rank : Nat} (h : kind.rank? = some rank) :
    1 ≤ rank := by
  cases kind <;> cases h <;> decide

theorem rank?_eq_some_one {kind : SectionKind} : kind.rank? = some 1 ↔ kind = .types := by
  cases kind <;> decide

theorem rank?_eq_some_two {kind : SectionKind} : kind.rank? = some 2 ↔ kind = .imports := by
  cases kind <;> decide

end SectionKind

namespace Metering

variable {m : Module}

/-! ### Anchors, type and import -/

/-- A section built from well-formed entries is intact, having no source to disagree with. -/
theorem intact_build {kind : SectionKind} {contents : kind.Contents}
    (h : kind.EntriesWellFormed contents) : (Section.build ⟨kind, contents⟩).Intact :=
  ⟨h, fun hunchanged => by cases hunchanged⟩

/-- A rank occurs when some section, customs aside, has it. -/
theorem mem_ranks {sections : List Section} {rank : Nat} :
    rank ∈ Section.ranks sections ↔ ∃ s ∈ sections, s.kind.rank? = some rank :=
  List.mem_filterMap

theorem kind_ne_of_position? {kind : SectionKind} (h : m.position? kind = none) {s : Section}
    (hs : s ∈ m.sections) : s.kind ≠ kind := by
  rintro rfl
  exact Module.position?_eq_none_iff.1 h (List.mem_map_of_mem hs)

/-- A type section may stand in front of all others. -/
theorem intact_insert_types (h : m.Intact) (hnone : m.position? .types = none) :
    (m.insert 0 (.build ⟨.types, []⟩)).Intact := by
  refine h.insert (intact_build (by simp [SectionKind.EntriesWellFormed])) ?_ ?_
  · intro rank hrank
    cases hrank
  · rintro rank hrank r ⟨⟩
    obtain ⟨s, hs, hr⟩ := mem_ranks.1 hrank
    have hle := SectionKind.one_le_of_rank? hr
    have hne : rank ≠ 1 := by
      rintro rfl
      exact kind_ne_of_position? hnone hs (SectionKind.rank?_eq_some_one.1 hr)
    show 1 < rank
    omega

/-- An import section may stand behind the types. -/
theorem intact_insert_imports (h : m.Intact) {position : Nat}
    (htypes : m.position? .types = some position) (hnone : m.position? .imports = none) :
    (m.insert (position + 1) (.build ⟨.imports, []⟩)).Intact := by
  obtain ⟨types, hs, hkind⟩ := Module.exists_of_position? htypes
  have hrank : types.kind.rank?.toList = [1] := by rw [hkind]; rfl
  obtain ⟨hlt, hget⟩ := List.getElem?_eq_some_iff.1 hs
  have ho := h.ordered
  rw [Module.Ordered, ← List.take_append_drop position m.sections, Module.ranks_append,
    List.drop_eq_getElem_cons hlt, hget, Module.ranks_cons, hrank] at ho
  obtain ⟨-, hbehind, hacross⟩ := List.pairwise_append.1 ho
  have hbehind := (List.pairwise_cons.1 hbehind).1
  have hfront : Section.ranks (m.sections.take (position + 1)) = [1] := by
    have hnil : Section.ranks (m.sections.take position) = [] := by
      refine List.eq_nil_iff_forall_not_mem.2 fun rank hmem => ?_
      obtain ⟨s, -, hr⟩ := mem_ranks.1 hmem
      have hle := SectionKind.one_le_of_rank? hr
      have hless := hacross rank hmem 1 (by simp)
      omega
    rw [List.take_add_one, Module.ranks_append, hnil, hs, Option.toList_some, Module.ranks_cons, hrank]
    rfl
  refine h.insert (intact_build (by simp [SectionKind.EntriesWellFormed])) ?_ ?_
  · rintro rank hmem r ⟨⟩
    rw [hfront, List.mem_singleton] at hmem
    show rank < 2
    omega
  · rintro rank hmem r ⟨⟩
    have hgreater := hbehind rank hmem
    obtain ⟨s, hdrop, hr⟩ := mem_ranks.1 hmem
    have hne : rank ≠ 2 := by
      rintro rfl
      exact kind_ne_of_position? hnone (List.mem_of_mem_drop hdrop)
        (SectionKind.rank?_eq_some_two.1 hr)
    show 2 < rank
    omega

theorem intact_withAnchors (h : m.Intact) : (withAnchors m).Intact := by
  have htypes := (m.contents?_anchor .types 0 []).1
  unfold withAnchors
  dsimp only
  generalize htyped : (if (m.position? .types).isSome then m
    else m.insert 0 (.build ⟨.types, []⟩)) = typed at *
  have hintact : typed.Intact := by
    rw [← htyped]
    split
    · exact h
    · next hnone => exact intact_insert_types h (Option.not_isSome_iff_eq_none.1 hnone)
  split
  · exact hintact
  · next hnone =>
    have hsome : (typed.position? .types).isSome = true := by
      rw [Module.isSome_position?, htypes]
      rfl
    obtain ⟨position, hposition⟩ := Option.isSome_iff_exists.1 hsome
    rw [hposition]
    exact intact_insert_imports hintact hposition (Option.not_isSome_iff_eq_none.1 hnone)

theorem intact_reserveType (h : m.Intact) : (reserveType m).1.Intact := by
  unfold reserveType
  dsimp only
  split
  · exact h
  · refine h.modify fun entries _ hentries type htype => ?_
    rcases List.mem_append.1 htype with htype | htype
    · exact hentries type htype
    · rw [List.mem_singleton.1 htype]
      rfl

theorem intact_addImport (h : m.Intact) (config : GasConfig) (typeIndex : UInt32) :
    (addImport m config typeIndex).Intact := by
  refine h.modify fun entries _ hentries entry hentry => ?_
  rcases List.mem_append.1 hentry with hentry | hentry
  · exact hentries entry hentry
  · rw [List.mem_singleton.1 hentry]
    trivial

/-- A module extended by the gas import is still intact. -/
theorem intact_extend (h : m.Intact) (config : GasConfig) : (extend m config).Intact :=
  intact_addImport (intact_reserveType (intact_withAnchors h)) config _

end Metering

/-! ### References and bodies -/

/-- A well-formed constant expression can be moved, as it disassembles, and is then well formed again.
-/
theorem ConstExpr.WellFormed.exists_mapReferences {expression : ConstExpr}
    (h : expression.WellFormed) (f : UInt32 → UInt32) :
    ∃ other, expression.mapReferences f = .ok other ∧ other.WellFormed := by
  cases hd : Disassembly.ofBytes expression.bytes with
  | error e => rw [WellFormed, hd] at h; cases h
  | ok d =>
      have hread := (Disassembly.ofBytesAt_eq_ok_iff.1 hd).1
      have hother : Disassembly.ofBytes (d.mapReferences f).assemble =
          .ok (d.mapReferences f).settle :=
        (hread.readable.mapReferences f).ofBytesAt_assemble 0
      refine ⟨⟨(d.mapReferences f).assemble⟩, ok_of_bind_iff.2 ⟨d, hd, rfl⟩, ?_⟩
      rw [WellFormed, hother]
      rfl

theorem ElementItems.WellFormed.exists_mapReferences {flags : UInt32} {items : ElementItems}
    (h : items.WellFormed flags) (f : UInt32 → UInt32) :
    ∃ other, items.mapReferences f = .ok other ∧ other.WellFormed flags := by
  cases items with
  | indices functions => exact ⟨.indices (functions.map f), rfl, h⟩
  | expressions slots =>
      obtain ⟨moved, hmoved, hslots⟩ := exists_mapM fun slot hslot =>
        (h.2 slot hslot).exists_mapReferences f
      exact ⟨.expressions moved, ok_of_bind_iff.2 ⟨moved, hmoved, rfl⟩, h.1, hslots⟩

/-- Neither the offset nor the items of a well-formed segment stop its move. -/
theorem ElementSegment.WellFormed.exists_mapReferences {segment : ElementSegment}
    (h : segment.WellFormed) (f : UInt32 → UInt32) :
    ∃ other, segment.mapReferences f = .ok other ∧ other.WellFormed := by
  obtain ⟨items, hitems, hwell⟩ := h.items.exists_mapReferences f
  exact ⟨{ segment with items }, ok_of_bind_iff.2 ⟨items, hitems, rfl⟩,
    h.flags, h.table, h.offset, h.expression, h.elementType, hwell⟩

/-- A global whose initial value is well formed can be moved. -/
theorem Global.exists_mapReferences {entry : Global} (h : entry.init.WellFormed)
    (f : UInt32 → UInt32) : ∃ other, entry.mapReferences f = .ok other ∧ other.init.WellFormed := by
  obtain ⟨init, hinit, hwell⟩ := h.exists_mapReferences f
  exact ⟨{ entry with init }, ok_of_bind_iff.2 ⟨init, hinit, rfl⟩, hwell⟩

/-- In an intact module, references can be replaced. -/
theorem Module.Intact.exists_mapReferences {m : Module} (h : m.Intact) (f : UInt32 → UInt32) :
    ∃ other, m.mapReferences f = .ok other ∧ other.Intact := by
  obtain ⟨first, hexports, hfirst⟩ := h.exists_adjust
    fun (entries : SectionKind.exports.Contents) _ =>
      ⟨entries.map (Export.mapReferences f), rfl, trivial⟩
  obtain ⟨second, hstart, hsecond⟩ := hfirst.exists_adjust
    fun (function : SectionKind.start.Contents) _ => ⟨f function, rfl, trivial⟩
  obtain ⟨third, helements, hthird⟩ := hsecond.exists_adjust
    fun (segments : SectionKind.elements.Contents) hsegments =>
      exists_mapM fun segment hsegment => (hsegments segment hsegment).exists_mapReferences f
  obtain ⟨other, hglobals, hother⟩ := hthird.exists_adjust
    fun (entries : SectionKind.globals.Contents) hentries =>
      exists_mapM fun entry hentry => Global.exists_mapReferences (hentries entry hentry) f
  exact ⟨other, ok_of_bind_iff.2 ⟨first, hexports, ok_of_bind_iff.2 ⟨second, hstart,
    ok_of_bind_iff.2 ⟨third, helements, hglobals⟩⟩⟩, hother⟩

variable {m : Module} {config : GasConfig} {costs : CostModel} {result : Metered}

/-- Metering keeps a module intact. -/
theorem Module.Intact.meter (h : m.Intact) (hmeter : m.meter config costs = .ok result) :
    result.module.Intact := by
  obtain ⟨-, ⟨moved, hmoved, hmetered⟩, -⟩ := Metering.meter_eq_ok_iff.1 hmeter
  obtain ⟨_, hreplaced, hintact⟩ := (Metering.intact_extend h config).exists_mapReferences
    (shift · m.insertionPoint 1)
  cases hreplaced.symm.trans hmoved
  obtain ⟨bodies, metered, -, -, heq⟩ := Metering.exists_modify_of_meterBodies hmetered
  rw [heq]
  exact hintact.modify fun _ _ _ => trivial

/-- What metering makes of a module that was read is read back, if it fits. -/
theorem exists_ofBytes_of_meter {input : List UInt8} (hread : Module.ofBytes input = .ok m)
    (hmeter : m.meter config costs = .ok result) (hfits : result.module.Fits) :
    ∃ m', Module.ofBytes result.module.toBytes = .ok m' ∧
      Module.ReadBack 8 result.module.sections m'.sections :=
  ((Module.intact_of_ofBytes hread).meter hmeter).exists_ofBytes_toBytes hfits

/-- A module that was read and metered is read back from the bytes that it is written as, with the
same kinds and contents of sections in the same order, up to the offsets of code. So nothing is
refused because the result cannot be read: metering binary modules succeeds exactly if reading and
metering do, and gives out the result of these as it is written. -/
theorem addGas_eq_ok_iff (input : List UInt8) (config : GasConfig)
    (hfits : ∀ m result, Module.ofBytes input = .ok m →
      m.meter config config.costModel = .ok result → result.module.Fits) :
    (∀ m result, Module.ofBytes input = .ok m → m.meter config config.costModel = .ok result →
      ∃ m', Module.ofBytes result.module.toBytes = .ok m' ∧
        m'.kinds = result.module.kinds ∧
        m'.sections.map (·.payload.clearOffsets) =
          result.module.sections.map (·.payload.clearOffsets)) ∧
    ∀ output, addGas input config = .ok output ↔
      ∃ m result, Module.ofBytes input = .ok m ∧ m.meter config config.costModel = .ok result ∧
        result.module.toBytes = output := by
  constructor
  · intro m result hread hmeter
    obtain ⟨m', hread', hback⟩ := exists_ofBytes_of_meter hread hmeter (hfits m result hread hmeter)
    exact ⟨m', hread', hback.map_kind, hback.map_clearOffsets⟩
  · intro output
    constructor
    · intro h
      obtain ⟨m, hread, h⟩ := ok_of_bind_iff.1 h
      obtain ⟨result, hmeter, h⟩ := ok_of_bind_iff.1 h
      obtain ⟨m', -, h⟩ := ok_of_bind_iff.1 h
      exact ⟨m, result, hread, hmeter, ok_of_pure_iff.1 h⟩
    · rintro ⟨m, result, hread, hmeter, rfl⟩
      obtain ⟨m', hread', -⟩ := exists_ofBytes_of_meter hread hmeter (hfits m result hread hmeter)
      exact ok_of_bind_iff.2 ⟨m, hread, ok_of_bind_iff.2 ⟨result, hmeter,
        ok_of_bind_iff.2 ⟨m', hread', rfl⟩⟩⟩

theorem addGas_eq_ok_iff_sample :
    (∀ m result, Module.ofBytes Module.sample.toBytes = .ok m →
      m.meter .standard GasConfig.standard.costModel = .ok result → result.module.Fits) ∧
    ∃ m result, Module.ofBytes Module.sample.toBytes = .ok m ∧
      m.meter .standard GasConfig.standard.costModel = .ok result ∧
      (∃ m', Module.ofBytes result.module.toBytes = .ok m' ∧ m'.kinds = result.module.kinds ∧
        m'.sections.map (·.payload.clearOffsets) =
          result.module.sections.map (·.payload.clearOffsets)) ∧
      addGas Module.sample.toBytes .standard = .ok result.module.toBytes := by
  have hok : (do
      let m ← Module.ofBytes Module.sample.toBytes
      let result ← m.meter .standard GasConfig.standard.costModel
      return decide result.module.Fits : Except Error Bool) = .ok true := by decide +kernel
  obtain ⟨m, hread, hok⟩ := ok_of_bind_iff.1 hok
  obtain ⟨result, hmeter, hok⟩ := ok_of_bind_iff.1 hok
  have hfits : ∀ m result, Module.ofBytes Module.sample.toBytes = .ok m →
      m.meter .standard GasConfig.standard.costModel = .ok result → result.module.Fits := by
    intro m' result' hread' hmeter'
    cases hread.symm.trans hread'
    cases hmeter.symm.trans hmeter'
    exact of_decide_eq_true (ok_of_pure_iff.1 hok)
  obtain ⟨hback, hiff⟩ := addGas_eq_ok_iff Module.sample.toBytes .standard hfits
  exact ⟨hfits, m, result, hread, hmeter, hback m result hread hmeter,
    (hiff _).2 ⟨m, result, hread, hmeter, rfl⟩⟩

end WasmMeter
