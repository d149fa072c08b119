import WasmMeter.Proofs.Metering.Insertion
import WasmMeter.Proofs.Metering.Simulation
import WasmMeter.Proofs.Module.Intact
import WasmMeter.Proofs.Module.WrittenAlike

/-!
Metering in memory and metering after a reload. The modules are written alike, and every link of the
chain keeps them so: which sections count as changed, the bytes they were read from and the offsets of
their code never show in what is written. So both are metered to the same bytes, or refused for the
same reason.
-/
namespace WasmMeter

open Metering

namespace Module

namespace WrittenAlike

variable {m m' : Module}

/-- Both modules are given the same section in the same place if they lack one of the kind. -/
theorem anchor (h : m.WrittenAlike m') (kind : SectionKind) (position : Nat) (s : Section) :
    WrittenAlike (if (m.position? kind).isSome then m else m.insert position s)
      (if (m'.position? kind).isSome then m' else m'.insert position s) := by
  rw [h.position?_eq]
  split
  · exact h
  · exact h.insert position s

theorem withAnchors (h : m.WrittenAlike m') :
    (withAnchors m).WrittenAlike (withAnchors m') := by
  have htypes := h.anchor .types 0 (.build ⟨.types, []⟩)
  unfold Metering.withAnchors
  dsimp only
  generalize (if (m.position? .types).isSome then m
    else m.insert 0 (.build ⟨.types, []⟩)) = typed at *
  generalize (if (m'.position? .types).isSome then m'
    else m'.insert 0 (.build ⟨.types, []⟩)) = typed' at *
  rw [htypes.position?_eq .types]
  exact htypes.anchor .imports _ _

/-- What a section is written as shows nothing of where it came from, so metering keeps modules written
alike. -/
theorem simulation : Simulation WrittenAlike where
  contents h := h.alike.contentsAlike
  anchors h := h.withAnchors
  modify h _ _ hcode change := h.modify hcode change
  code h _ _ hbodies := h.modify_code hbodies

end WrittenAlike

/-- The modules that come of reading, metering, and changing what is there: contents of a kind are
replaced, and sections are put in, either new ones or those that another such module has. Neither has
to leave the module well-formed. -/
inductive Reachable : Module → Prop where
  | read {input : List UInt8} {m : Module} (h : Module.ofBytes input = .ok m) : Reachable m
  | metered {m : Module} {config : GasConfig} {costs : CostModel} {result : Metered}
      (h : Reachable m) (hmeter : m.meter config costs = .ok result) : Reachable result.module
  | modified {m : Module} (h : Reachable m) (kind : SectionKind)
      (change : kind.Contents → kind.Contents) : Reachable (m.modify kind change)
  | added {m : Module} (h : Reachable m) (position : Nat) {s : Section}
      (hs : s.isChanged = true) : Reachable (m.insert position s)
  | copied {m other : Module} (h : Reachable m) (hother : Reachable other) (position : Nat)
      {s : Section} (hs : s ∈ other.sections) : Reachable (m.insert position s)

/-- Every section that was not changed is what some frame was read as. -/
def Grounded (m : Module) : Prop :=
  ∀ s ∈ m.sections, s.isChanged = false → ∃ start, s.IsReadAt start

namespace Grounded

variable {m other : Module} {kind : SectionKind}

/-- Every section of a module just read is grounded: it stands where the input had it. -/
theorem of_ofBytes {input : List UInt8} (h : Module.ofBytes input = .ok m) : m.Grounded :=
  fun s hs => ((intact_of_ofBytes h).sections s hs).unchanged

/-- What is changed does not need its bytes any more. -/
theorem modify (h : m.Grounded) (change : kind.Contents → kind.Contents) :
    (m.modify kind change).Grounded := by
  intro s hs hunchanged
  obtain ⟨i, hi⟩ := List.mem_iff_getElem?.1 hs
  rw [getElem?_sections_modify] at hi
  split at hi
  · obtain ⟨old, -, rfl⟩ := Option.map_eq_some_iff.1 hi
    rw [Section.isChanged_setPayload] at hunchanged
    cases hunchanged
  · exact h s (List.mem_of_getElem? hi) hunchanged

theorem insert (h : m.Grounded) (position : Nat) {s : Section}
    (hs : s.isChanged = false → ∃ start, s.IsReadAt start) : (m.insert position s).Grounded := by
  intro other hother
  rcases List.mem_append.1 hother with hother | hother
  · exact h other (List.mem_of_mem_take hother)
  · rcases List.mem_cons.1 hother with rfl | hother
    · exact hs
    · exact h other (List.mem_of_mem_drop hother)

theorem insert_of_isChanged (h : m.Grounded) (position : Nat) {s : Section}
    (hs : s.isChanged = true) : (m.insert position s).Grounded := by
  refine h.insert position fun hunchanged => ?_
  rw [hs] at hunchanged
  cases hunchanged

/-- A section that an adjustment alters counts as changed, and every other one is as it was read. -/
theorem adjust (h : m.Grounded) {change : kind.Contents → Except Error kind.Contents}
    (hadjust : m.adjust kind change = .ok other) : other.Grounded := by
  unfold Module.adjust at hadjust
  split at hadjust
  · rw [← ok_of_pure_iff.1 hadjust]
    exact h
  · obtain ⟨changed, -, hadjust⟩ := ok_of_bind_iff.1 hadjust
    rw [← ok_of_pure_iff.1 hadjust]
    split
    · exact h
    · exact h.modify _

theorem mapReferences (h : m.Grounded) {f : UInt32 → UInt32}
    (hmoved : m.mapReferences f = .ok other) : other.Grounded := by
  obtain ⟨first, hexports, hmoved⟩ := ok_of_bind_iff.1 hmoved
  obtain ⟨second, hstart, hmoved⟩ := ok_of_bind_iff.1 hmoved
  obtain ⟨third, helements, hglobals⟩ := ok_of_bind_iff.1 hmoved
  exact (((h.adjust hexports).adjust hstart).adjust helements).adjust hglobals

theorem extend (h : m.Grounded) (config : GasConfig) : (extend m config).Grounded := by
  have hanchored : (withAnchors m).Grounded := by
    unfold withAnchors
    dsimp only
    split <;> split
    · exact h
    · exact h.insert_of_isChanged _ rfl
    · exact h.insert_of_isChanged _ rfl
    · exact (h.insert_of_isChanged _ rfl).insert_of_isChanged _ rfl
  unfold Metering.extend reserveType
  dsimp only
  split
  · exact hanchored.modify _
  · exact (hanchored.modify _).modify _

/-- Metering a grounded module leaves each section changed or still as it was read. -/
theorem meter {config : GasConfig} {costs : CostModel} {result : Metered} (h : m.Grounded)
    (hmeter : m.meter config costs = .ok result) : result.module.Grounded := by
  obtain ⟨-, ⟨moved, hmoved, hmetered⟩, -⟩ := meter_eq_ok_iff.1 hmeter
  have hgrounded := (h.extend config).mapReferences hmoved
  obtain ⟨bodies, metered, -, -, heq⟩ := exists_modify_of_meterBodies hmetered
  rw [heq]
  exact hgrounded.modify _

end Grounded

/-- No step loses the bytes of a section that it leaves unchanged. -/
theorem Reachable.grounded {m : Module} (h : m.Reachable) : m.Grounded := by
  induction h with
  | read h => exact .of_ofBytes h
  | metered _ hmeter ih => exact ih.meter hmeter
  | modified _ kind change ih => exact ih.modify change
  | added _ position hs ih => exact ih.insert_of_isChanged position hs
  | copied _ _ position hs ih ihother => exact ih.insert position (ihother _ hs)

/-- A module that was read, metered and changed in any way, and has well-formed contents and its
sections in order, can be written and read again. Metering it and metering the module that was read
again both succeed, with the same bytes and the same index of the function that takes the charges, or
both fail, with the same error up to its offset. -/
theorem Reachable.agree_meter_reloaded {m : Module} (h : m.Reachable)
    (hwell : ∀ s ∈ m.sections, s.payload.WellFormed) (hordered : m.Ordered) :
    ∃ reloaded, Module.ofBytes m.toBytes = .ok reloaded ∧
      ∀ config costs, Agree (fun result result' =>
          result'.module.toBytes = result.module.toBytes ∧
            result'.gasFunction = result.gasFunction)
        (m.meter config costs) (reloaded.meter config costs) := by
  obtain ⟨reloaded, hread, hback⟩ := exists_ofBytes_toBytes hordered fun s hs =>
    ⟨fun _ => hwell s hs, h.grounded s hs⟩
  refine ⟨reloaded, hread, fun config costs => ?_⟩
  refine (WrittenAlike.simulation.meter hback.writtenAlike config costs).mono
    fun result result' hsame => ?_
  exact ⟨hsame.1.toBytes_eq, hsame.2⟩

/-- The module with its first function exported once more. -/
def exportFirst (m : Module) : Module :=
  m.modify .exports fun entries => entries ++ [⟨"first", .function, 0⟩]

theorem Reachable.agree_meter_reloaded_sample :
    ∃ m : Module, m.Reachable ∧ (∀ s ∈ m.sections, s.payload.WellFormed) ∧ m.Ordered ∧
      m.sections.any (·.isChanged) ∧
      ∃ reloaded, Module.ofBytes m.toBytes = .ok reloaded ∧
        ∀ config costs, Agree (fun result result' =>
            result'.module.toBytes = result.module.toBytes ∧
              result'.gasFunction = result.gasFunction)
          (m.meter config costs) (reloaded.meter config costs) := by
  have hok : (do
      let m ← Module.ofBytes sample.toBytes
      let result ← m.meter .standard (.constant 1)
      let changed := result.module.exportFirst
      return decide ((∀ s ∈ changed.sections, s.payload.WellFormed) ∧
        (Section.ranks changed.sections).Pairwise (· < ·) ∧
        changed.sections.any (·.isChanged)) : Except Error Bool) = .ok true := by
    decide +kernel
  obtain ⟨m, hread, hok⟩ := ok_of_bind_iff.1 hok
  obtain ⟨result, hmeter, hok⟩ := ok_of_bind_iff.1 hok
  obtain ⟨hwell, hordered, hchanged⟩ := of_decide_eq_true (ok_of_pure_iff.1 hok)
  have hreachable : result.module.exportFirst.Reachable :=
    .modified (.metered (.read hread) hmeter) .exports _
  exact ⟨_, hreachable, hwell, hordered, hchanged,
    hreachable.agree_meter_reloaded hwell hordered⟩

end Module

end WasmMeter
