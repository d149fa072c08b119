import WasmMeter.Proofs.Metering.Bodies
import WasmMeter.Proofs.Module.ReferenceSites

/-!
Where references go. Every site of the module is found again in the metered one, at the same place or
behind the instructions that pay, and holds the index at which the same function is then. The index
of the metering import is held by the calls that pay and by nothing else.
-/
namespace WasmMeter

open Metering

variable {f : UInt32 → UInt32}

/-! ### Sites outside the code -/

/-- The references of a moved constant expression stand at the sites they had, each with its moved
index. -/
theorem ConstExpr.sites_mapReferences {expression other : ConstExpr}
    (h : expression.mapReferences f = .ok other) (site : Nat → ReferenceSite)
    (hsite : ∀ number, site number = (site number).behindPrologue) :
    ∃ found, expression.sites site = .ok found ∧
      other.sites site = .ok (found.map fun r => (r.1.behindPrologue, f r.2)) := by
  obtain ⟨d, hd, h⟩ := ok_of_bind_iff.1 h
  obtain rfl := ok_of_pure_iff.1 h
  have hread := (Disassembly.ofBytesAt_eq_ok_iff.1 hd).1
  have hother : Disassembly.ofBytes (d.mapReferences f).assemble = .ok (d.mapReferences f).settle :=
    (hread.readable.mapReferences f).ofBytesAt_assemble 0
  refine ⟨d.sites site, ?_, ?_⟩
  · rw [sites, hd]
    rfl
  · rw [sites, hother, ← Disassembly.sites_mapReferences f hsite, ← Disassembly.sites_settle]
    rfl

theorem ElementItems.sites_mapReferences {items other : ElementItems}
    (h : items.mapReferences f = .ok other) (segment : Nat) :
    ∃ found, items.sites segment = .ok found ∧
      other.sites segment = .ok (found.map fun r => (r.1.behindPrologue, f r.2)) := by
  cases items with
  | indices functions =>
      obtain rfl := ok_of_pure_iff.1 h
      have hvalue : ∀ function, some (f function) = (some function).map f := fun _ => rfl
      have hmoved : sitesOf some (.elementIndex segment) (functions.map f) =
          (sitesOf some (.elementIndex segment) functions).map fun r =>
            (r.1.behindPrologue, f r.2) := by
        apply sitesOf_map hvalue
        intro item
        rfl
      exact ⟨_, rfl, congrArg _ hmoved⟩
  | expressions slots =>
      obtain ⟨moved, hmoved, h⟩ := ok_of_bind_iff.1 h
      obtain rfl := ok_of_pure_iff.1 h
      exact collect_map_of_forall₂ (mapM_eq_ok_iff.1 hmoved) fun slot other item hslot =>
        ConstExpr.sites_mapReferences hslot (.elementExpression segment item) fun _ => rfl

/-- The references of a moved segment are those it had, offset before items, each moved. -/
theorem ElementSegment.sites_mapReferences {segment other : ElementSegment} (number : Nat)
    (h : segment.mapReferences f = .ok other) :
    ∃ found, segment.sites number = .ok found ∧
      other.sites number = .ok (found.map fun r => (r.1.behindPrologue, f r.2)) := by
  obtain ⟨items, hitems, h⟩ := ok_of_bind_iff.1 h
  obtain rfl := ok_of_pure_iff.1 h
  exact ElementItems.sites_mapReferences hitems number

theorem Global.sites_mapReferences {entry other : Global} (number : Nat)
    (h : entry.mapReferences f = .ok other) :
    ∃ found, entry.sites number = .ok found ∧
      other.sites number = .ok (found.map fun r => (r.1.behindPrologue, f r.2)) := by
  obtain ⟨init, hinit, h⟩ := ok_of_bind_iff.1 h
  obtain rfl := ok_of_pure_iff.1 h
  exact ConstExpr.sites_mapReferences hinit (.globalInitializer number) fun _ => rfl

theorem forall₂_of_option_mapM {ε α β : Type} {change : α → Except ε β} {entries : Option (List α)}
    {others : Option (List β)} (h : entries.mapM (·.mapM change) = .ok others) :
    List.Forall₂ (fun a b => change a = .ok b) (entries.getD []) (others.getD []) := by
  cases entries with
  | none =>
      obtain rfl := ok_of_pure_iff.1 h
      exact .nil
  | some entries =>
      obtain ⟨changed, hchanged, h⟩ := ok_of_bind_iff.1 h
      obtain rfl := ok_of_pure_iff.1 h
      exact mapM_eq_ok_iff.1 hchanged

theorem Export.function?_mapReferences (f : UInt32 → UInt32) (entry : Export) :
    (entry.mapReferences f).function? = entry.function?.map f := by
  unfold mapReferences function?
  by_cases h : entry.kind = .function
  · simp [h]
  · simp [h]

variable {m other : Module} {config : GasConfig} {costs : CostModel} {result : Metered}

/-- Where references are replaced outside the code, every site stays where it is. -/
theorem Module.sitesOutsideCode_of_replaced
    (hexports : other.contents? .exports =
      (m.contents? .exports).map (·.map (Export.mapReferences f)))
    (hstart : other.contents? .start = (m.contents? .start).map f)
    (helements : (m.contents? .elements).mapM (·.mapM (ElementSegment.mapReferences f)) =
      .ok (other.contents? .elements))
    (hglobals : (m.contents? .globals).mapM (·.mapM (Global.mapReferences f)) =
      .ok (other.contents? .globals)) :
    ∃ found, m.sitesOutsideCode = .ok found ∧
      other.sitesOutsideCode = .ok (found.map fun r => (r.1.behindPrologue, f r.2)) := by
  obtain ⟨segments, hsegments, hsegments'⟩ := collect_map_of_forall₂
    (forall₂_of_option_mapM helements) fun _ _ number => ElementSegment.sites_mapReferences number
  obtain ⟨globals, hglobals, hglobals'⟩ := collect_map_of_forall₂
    (forall₂_of_option_mapM hglobals) fun _ _ number => Global.sites_mapReferences number
  have hexported : other.exportSites = m.exportSites.map fun r =>
      (r.1.behindPrologue, f r.2) := by
    have hentries : other.exportEntries = m.exportEntries.map (Export.mapReferences f) := by
      rw [Module.exportEntries, hexports, Module.exportEntries]
      cases m.contents? .exports <;> rfl
    rw [Module.exportSites, hentries]
    apply sitesOf_map (Export.function?_mapReferences f)
    intro number
    rfl
  have hstarted : other.startSites = m.startSites.map fun r => (r.1.behindPrologue, f r.2) := by
    rw [Module.startSites, Module.startSites, hstart]
    cases m.contents? .start <;> rfl
  refine ⟨m.exportSites ++ m.startSites ++ segments ++ globals, ?_, ?_⟩
  · rw [Module.sitesOutsideCode, hsegments, hglobals]
    rfl
  · rw [Module.sitesOutsideCode, hsegments', hglobals', hexported, hstarted]
    simp only [List.map_append]
    rfl

/-- Outside the code the metered module has the references of the module, in order and shifted. -/
theorem Metering.Rewritten.sitesOutsideCode (h : Rewritten m config costs other) :
    ∃ found, m.sitesOutsideCode = .ok found ∧
      other.sitesOutsideCode = .ok (found.map fun r =>
        (r.1.behindPrologue, shift r.2 m.insertionPoint 1)) :=
  Module.sitesOutsideCode_of_replaced h.exports h.start h.elements h.globals

/-! ### Sites in the code -/

variable {gasFunction functions : UInt32} {body metered : FunctionBody}

/-- The two instructions of the prologue neither open nor close a block. -/
theorem Metering.plain_prologue {charge : Int32} :
    ∀ i ∈ prologue charge gasFunction, i.opcode.role? = none ∧ i.mark = none := by
  intro i hi
  rcases List.mem_pair.1 hi with rfl | rfl <;> exact ⟨rfl, rfl⟩

theorem Metering.readable_prologue {charge : Int32} :
    ∀ i ∈ prologue charge gasFunction, i.Readable := by
  intro i hi
  rcases List.mem_pair.1 hi with rfl | rfl
  · exact Instruction.readable_i32Const charge
  · exact Instruction.readable_call gasFunction

theorem Disassembly.IsRead.readable_metered {d : Disassembly} (h : d.IsRead) (charge : Int32)
    (gasFunction : UInt32) :
    ((d.mapReferences (shift · gasFunction 1)).prepend (prologue charge gasFunction)).Readable :=
  (h.readable.mapReferences _).prepend plain_prologue readable_prologue

/-- In a metered body, the call that pays comes first, and every other site is two further on. -/
theorem Metering.BodyMetered.sites (h : BodyMetered costs gasFunction functions body metered)
    (number : Nat) :
    ∃ found, body.sites number = .ok found ∧
      metered.sites number = .ok ((.body number 1, gasFunction) ::
        found.map fun r => (r.1.behindPrologue, shift r.2 gasFunction 1)) ∧
      ∀ r ∈ found, shift r.2 gasFunction 1 < functions := by
  obtain ⟨d, hd, hresolve, hcode⟩ := h.disassembled
  have hread := (Disassembly.ofBytesAt_eq_ok_iff.1 hd).1
  have hreadable := hread.readable_metered (costs.charge d.instructions) gasFunction
  refine ⟨d.sites (.body number), ?_, ?_, ?_⟩
  · rw [FunctionBody.sites, hd]
    rfl
  · have hbehind : (d.mapReferences (shift · gasFunction 1)).sites
        (fun position => .body number (position + 2)) = (d.sites (.body number)).map fun r =>
          (r.1.behindPrologue, shift r.2 gasFunction 1) := by
      apply Disassembly.sites_mapReferences
      intro position
      rfl
    have hmetered : ((d.mapReferences (shift · gasFunction 1)).prepend
        (prologue (costs.charge d.instructions) gasFunction)).settle.sites (.body number) =
        (.body number 1, gasFunction) :: (d.sites (.body number)).map fun r =>
          (r.1.behindPrologue, shift r.2 gasFunction 1) := by
      rw [Disassembly.sites_settle, Disassembly.sites_prepend, ← hbehind]
      rfl
    rw [FunctionBody.sites, hcode, hreadable.ofBytesAt_assemble, ← hmetered]
    rfl
  · intro r hr
    refine hresolve r.2 ?_
    rw [Disassembly.references, ← map_snd_sitesOf (.body number)]
    exact List.mem_map_of_mem hr

/-- The sites of metered bodies, given those of each body: the call that pays comes in front. -/
def meteredSites (gasFunction : UInt32) (parts : List (List (ReferenceSite × UInt32))) :
    List (ReferenceSite × UInt32) :=
  (parts.mapIdx fun number part => (.body number 1, gasFunction) ::
    part.map fun r => (r.1.behindPrologue, shift r.2 gasFunction 1)).flatten

theorem meteredSites_concat (gasFunction : UInt32) (parts : List (List (ReferenceSite × UInt32)))
    (part : List (ReferenceSite × UInt32)) :
    meteredSites gasFunction (parts ++ [part]) = meteredSites gasFunction parts ++
      (.body parts.length 1, gasFunction) ::
        part.map fun r => (r.1.behindPrologue, shift r.2 gasFunction 1) := by
  rw [meteredSites, List.mapIdx_concat, List.flatten_concat]
  rfl

theorem Metering.Rewritten.bodies (h : Rewritten m config costs other) :
    List.Forall₂ (BodyMetered costs m.insertionPoint other.functionCount) m.bodies other.bodies := by
  obtain ⟨bodies, metered, hbodies, hmetered, hall⟩ := h.code
  rwa [Module.bodies, hbodies, Module.bodies, hmetered]

/-- In the code each body's references are shifted and come after the call of its own prologue. -/
theorem Metering.Rewritten.sitesInCode (h : Rewritten m config costs other) :
    ∃ parts : List (List (ReferenceSite × UInt32)),
      collect FunctionBody.sites m.bodies = .ok parts.flatten ∧
      collect FunctionBody.sites other.bodies =
        .ok (meteredSites m.insertionPoint parts) ∧
      parts.length = m.bodies.length ∧
      ∀ r ∈ parts.flatten, shift r.2 m.insertionPoint 1 < other.functionCount :=
  collect_of_forall₂ h.bodies fun _ _ number hbody => hbody.sites number

/-! ### All sites -/

theorem filter_behindPrologue (found : List (ReferenceSite × UInt32)) (f : UInt32 → UInt32)
    (isPrologue : Bool) :
    (found.map fun r => (r.1.behindPrologue, f r.2)).filter (·.1.isPrologue = isPrologue) =
      if isPrologue then [] else found.map fun r => (r.1.behindPrologue, f r.2) := by
  have hbehind : ∀ r ∈ found.map fun r => (r.1.behindPrologue, f r.2),
      r.1.isPrologue = false := by
    intro r hr
    obtain ⟨before, -, rfl⟩ := List.mem_map.1 hr
    exact before.1.isPrologue_behindPrologue
  cases isPrologue with
  | true => exact List.filter_eq_nil_iff.2 fun r hr => by simp [hbehind r hr]
  | false => exact List.filter_eq_self.2 fun r hr => by simp [hbehind r hr]

/-- Of the sites of metered bodies, those that do not pay are those that there were. -/
theorem filter_meteredSites_false (gasFunction : UInt32)
    (parts : List (List (ReferenceSite × UInt32))) :
    (meteredSites gasFunction parts).filter (·.1.isPrologue = false) =
      parts.flatten.map fun r => (r.1.behindPrologue, shift r.2 gasFunction 1) := by
  induction parts using List.reverseRecOn with
  | nil => rfl
  | append_singleton parts part ih =>
      have hpays : (ReferenceSite.body parts.length 1).isPrologue = true := rfl
      rw [meteredSites_concat, List.filter_append, ih, List.filter_cons_of_neg (by simp [hpays]),
        filter_behindPrologue part (shift · gasFunction 1), List.flatten_concat, List.map_append]
      rfl

/-- Those that pay are one in each body. -/
theorem filter_meteredSites_true (gasFunction : UInt32)
    (parts : List (List (ReferenceSite × UInt32))) :
    (meteredSites gasFunction parts).filter (·.1.isPrologue = true) =
      (List.range parts.length).map fun number => (.body number 1, gasFunction) := by
  induction parts using List.reverseRecOn with
  | nil => rfl
  | append_singleton parts part ih =>
      have hpays : (ReferenceSite.body parts.length 1).isPrologue = true := rfl
      rw [meteredSites_concat, List.filter_append, ih, List.filter_cons_of_pos (by simp [hpays]),
        filter_behindPrologue part (shift · gasFunction 1), List.length_append,
        List.length_singleton, List.range_succ, List.map_append]
      rfl

/-- Every reference resolves, moved or not, and to the same function. -/
theorem Metering.Outcome.resolves (h : Outcome m config costs result)
    (hcount : m.functionSpace.length < 2 ^ 32 - 1) {function : UInt32}
    (hfunction : shift function m.insertionPoint 1 < result.module.functionCount) :
    function.toNat < m.functionSpace.length ∧
      (shift function m.insertionPoint 1).toNat < result.module.functionSpace.length ∧
      shift function m.insertionPoint 1 ≠ m.insertionPoint ∧
      result.module.functionSpace[(shift function m.insertionPoint 1).toNat]? =
        m.functionSpace[function.toNat]? := by
  obtain ⟨typeIndex, hentries⟩ := h.importEntries
  have hspace := Module.functionSpace_of_import hentries h.declarations
  have hpoint := m.toNat_insertionPoint (by omega)
  have hle : m.importedCount .function ≤ m.functionSpace.length := by
    rw [Module.length_functionSpace]
    omega
  have hlength := Module.length_functionSpace_of_import hentries h.declarations
  have hlimit := Module.toNat_functionCount (m := result.module) (by omega)
  exact Module.getElem?_shift (hpoint ▸ hspace) (hpoint ▸ hle) hlimit hfunction

/-- The references outside the code were checked in the result. -/
theorem Metering.Outcome.shift_lt_functionCount (h : Outcome m config costs result)
    {found : List (ReferenceSite × UInt32)} (hfound : result.module.sitesOutsideCode = .ok
      (found.map fun r => (r.1.behindPrologue, shift r.2 m.insertionPoint 1))) :
    ∀ r ∈ found, shift r.2 m.insertionPoint 1 < result.module.functionCount := by
  obtain ⟨references, hreferences, hvalues⟩ := Module.functionReferences_of_sites hfound
  obtain ⟨-, _, hchecked, hlt⟩ := checkModule_eq_ok_iff.1 h.checked
  cases hreferences.symm.trans hchecked
  have hbelow : ∀ value ∈ references.map (·.2), value < result.module.functionCount :=
    List.forall_mem_map.2 hlt
  rw [hvalues, List.map_map] at hbelow
  exact List.forall_mem_map.1 hbelow

/-- The sites of the result are those of the module, moved, and the calls that pay; and what they
hold was checked. -/
theorem Metering.Outcome.referenceSites (h : Outcome m config costs result) :
    ∃ sites sites', m.referenceSites = .ok sites ∧ result.module.referenceSites = .ok sites' ∧
      sites'.filter (·.1.isPrologue = false) =
        sites.map (fun r => (r.1.behindPrologue, shift r.2 m.insertionPoint 1)) ∧
      sites'.filter (·.1.isPrologue = true) =
        (List.range m.bodies.length).map (fun number => (.body number 1, m.insertionPoint)) ∧
      ∀ r ∈ sites, shift r.2 m.insertionPoint 1 < result.module.functionCount := by
  obtain ⟨outside, houtside, houtside'⟩ := h.sitesOutsideCode
  obtain ⟨parts, hinside, hinside', hbodies, hbelow⟩ := h.sitesInCode
  have hsites : m.referenceSites = .ok (outside ++ parts.flatten) := by
    rw [Module.referenceSites, houtside, hinside]
    rfl
  have hsites' : result.module.referenceSites = .ok (outside.map (fun r =>
      (r.1.behindPrologue, shift r.2 m.insertionPoint 1)) ++
        meteredSites m.insertionPoint parts) := by
    rw [Module.referenceSites, houtside', hinside']
    rfl
  refine ⟨_, _, hsites, hsites', ?_, ?_, ?_⟩
  · rw [List.filter_append, filter_behindPrologue outside (shift · m.insertionPoint 1),
      filter_meteredSites_false, List.map_append]
    rfl
  · rw [List.filter_append, filter_behindPrologue outside (shift · m.insertionPoint 1),
      filter_meteredSites_true, hbodies]
    rfl
  · intro r hr
    rcases List.mem_append.1 hr with hr | hr
    · exact h.shift_lt_functionCount houtside' r hr
    · exact hbelow r hr

/-- Metering renumbers every reference to a function, once and by one rule. What the sites of the
module hold is held, moved, by the sites of the result in the same order, apart from the calls that
pay, of which there is one in each body. A moved index is that of the same function, and it is never
that of the metering import. -/
theorem Module.references_of_meter (h : m.meter config costs = .ok result)
    (hcount : m.functionSpace.length < 2 ^ 32 - 1) :
    ∃ sites sites', m.referenceSites = .ok sites ∧ result.module.referenceSites = .ok sites' ∧
      sites'.filter (·.1.isPrologue = false) =
        sites.map (fun r => (r.1.behindPrologue, shift r.2 m.insertionPoint 1)) ∧
      sites'.filter (·.1.isPrologue = true) =
        (List.range m.bodies.length).map (fun number => (.body number 1, m.insertionPoint)) ∧
      (∀ r ∈ sites', r.2 = m.insertionPoint ↔ r.1.isPrologue = true) ∧
      ∀ r ∈ sites, r.2.toNat < m.functionSpace.length ∧
        (shift r.2 m.insertionPoint 1).toNat < result.module.functionSpace.length ∧
        shift r.2 m.insertionPoint 1 ≠ m.insertionPoint ∧
        result.module.functionSpace[(shift r.2 m.insertionPoint 1).toNat]? =
          m.functionSpace[r.2.toNat]? := by
  have hout := outcome_of_meter h
  obtain ⟨sites, sites', hsites, hsites', hothers, hpayers, hbelow⟩ := hout.referenceSites
  have hresolves := fun r hr => hout.resolves hcount (hbelow r hr)
  refine ⟨sites, sites', hsites, hsites', hothers, hpayers, ?_, hresolves⟩
  intro r hr
  cases hpays : r.1.isPrologue with
  | true =>
      have hmem : r ∈ sites'.filter (·.1.isPrologue = true) :=
        List.mem_filter.2 ⟨hr, decide_eq_true hpays⟩
      rw [hpayers] at hmem
      obtain ⟨number, -, rfl⟩ := List.mem_map.1 hmem
      exact iff_of_true rfl rfl
  | false =>
      have hmem : r ∈ sites'.filter (·.1.isPrologue = false) :=
        List.mem_filter.2 ⟨hr, decide_eq_true hpays⟩
      rw [hothers] at hmem
      obtain ⟨before, hbefore, rfl⟩ := List.mem_map.1 hmem
      exact iff_of_false (hresolves before hbefore).2.2.1 Bool.false_ne_true

theorem Module.references_of_meter_sample :
    sample.functionSpace.length < 2 ^ 32 - 1 ∧
      ∃ result, sample.meter .standard (.constant 1) = .ok result ∧
        ∃ sites sites', sample.referenceSites = .ok sites ∧
          result.module.referenceSites = .ok sites' ∧
          sites'.filter (·.1.isPrologue = false) =
            sites.map (fun r => (r.1.behindPrologue, shift r.2 sample.insertionPoint 1)) ∧
          sites'.filter (·.1.isPrologue = true) = (List.range sample.bodies.length).map
            (fun number => (.body number 1, sample.insertionPoint)) ∧
          (∀ r ∈ sites', r.2 = sample.insertionPoint ↔ r.1.isPrologue = true) ∧
          ∀ r ∈ sites, r.2.toNat < sample.functionSpace.length ∧
            (shift r.2 sample.insertionPoint 1).toNat < result.module.functionSpace.length ∧
            shift r.2 sample.insertionPoint 1 ≠ sample.insertionPoint ∧
            result.module.functionSpace[(shift r.2 sample.insertionPoint 1).toNat]? =
              sample.functionSpace[r.2.toNat]? := by
  have hcount : sample.functionSpace.length < 2 ^ 32 - 1 := by decide +kernel
  have hok : (sample.meter .standard (.constant 1)).isOk = true := by decide +kernel
  cases h : sample.meter .standard (.constant 1) with
  | error e => rw [h] at hok; cases hok
  | ok result => exact ⟨hcount, result, rfl, references_of_meter h hcount⟩

end WasmMeter
