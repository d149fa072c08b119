import WasmMeter.Proofs.Metering.References
import WasmMeter.Proofs.Module.Alike

/-!
Metering a module that was metered before. The second import stands behind the first one, so the calls
that pay for the first run keep their index; the signature is there already; and everything else moves
as if all imports had been put in at once.
-/
namespace WasmMeter

/-! ### Charges and payments -/

/-- The charge for a body of so many instructions. -/
def GasConfig.chargeFor (config : GasConfig) (count : Nat) : Int32 :=
  if config.isPerInstruction then
    Int32.ofInt (max CostModel.least
      (min CostModel.greatest (min (count : Int) CostModel.greatest * config.cost.toInt)))
  else config.cost

/-- Charges depend on the number of instructions only. -/
theorem GasConfig.charge_costModel (config : GasConfig) (instructions : List Instruction) :
    config.costModel.charge instructions = config.chargeFor instructions.length := by
  unfold costModel chargeFor
  cases config.isPerInstruction <;> rfl

/-- The bytes with which a body pays a charge. -/
def payment (charge : Int32) (gasFunction : Nat) : List UInt8 :=
  0x41 :: Leb128.ofInt charge.toInt ++ 0x10 :: Leb128.ofNat gasFunction

/-- What a body of so many instructions pays in one run after another, with the functions from `point`
on. Each run puts its two instructions in front, so the last one pays first. -/
def payments (configs : List GasConfig) (count point : Nat) : List UInt8 :=
  configs.zipIdx.reverse.flatMap fun (config, run) =>
    payment (config.chargeFor (count + 2 * run)) (point + run)

/-- The payments of the later runs stand in front, with the point one further and the count of
instructions two larger, for the prologue of the first. -/
theorem payments_cons (config : GasConfig) (rest : List GasConfig) (count point : Nat) :
    payments (config :: rest) count point =
      payments rest (count + 2) (point + 1) ++ payment (config.chargeFor count) point := by
  have hlater : rest.zipIdx 1 = rest.zipIdx.map fun entry => (entry.1, entry.2 + 1) :=
    List.zipIdx_succ
  have hrun : ∀ entry ∈ rest.zipIdx.reverse,
      payment (entry.1.chargeFor (count + 2 * (entry.2 + 1))) (point + (entry.2 + 1)) =
        payment (entry.1.chargeFor (count + 2 + 2 * entry.2)) (point + 1 + entry.2) := by
    intro entry _
    rw [Nat.mul_succ, Nat.add_comm _ 2, ← Nat.add_assoc, Nat.add_comm entry.2, ← Nat.add_assoc]
  rw [payments, List.zipIdx_cons, List.reverse_cons, List.flatMap_append, hlater,
    ← List.map_reverse, List.flatMap_map, List.flatMap_singleton, List.flatMap_congr hrun]
  rfl

/-! ### Instructions -/

namespace Instruction

/-- What is written for an instruction once every function from `point` on has moved up by `count`. -/
def movedBytesBy (count : Nat) (point : UInt32) (instruction : Instruction) : List UInt8 :=
  match instruction.function? with
  | none => instruction.toBytes
  | some function =>
      if function < point then instruction.toBytes
      else instruction.opcode.toBytes ++ Leb128.ofNat (function.toNat + count)

variable {instruction : Instruction} {point limit : UInt32}

theorem movedBytesBy_one : movedBytesBy 1 point = movedBytes point := rfl

/-- An instruction that was moved once and moves again is written as if it had moved at once. -/
theorem movedBytesBy_mapFunction (count : Nat) (hpoint : point.toNat + 1 < UInt32.size)
    (h : ∀ function, instruction.function? = some function → shift function point 1 < limit) :
    (instruction.mapFunction (shift · point 1)).movedBytesBy count (point + 1) =
      instruction.movedBytesBy (count + 1) point := by
  have hnext := toNat_add_one hpoint
  unfold movedBytesBy
  rw [function?_mapFunction]
  unfold mapFunction
  cases hf : instruction.function? with
  | none => rfl
  | some function =>
      obtain ⟨himmediate, -⟩ := opcode_of_function? hf
      dsimp only [Option.map_some]
      by_cases hlt : function < point
      · have hnat := UInt32.lt_iff_toNat_lt.1 hlt
        have hbelow : function < point + 1 := by
          rw [UInt32.lt_iff_toNat_lt, hnext]
          omega
        rw [shift_of_lt hlt, if_pos hbelow, if_pos hlt, ← himmediate, withImmediate_self]
      · have hmoved := toNat_shift_of_shift_lt (UInt32.not_lt.1 hlt) (h function hf)
        have hge := UInt32.le_iff_toNat_le.1 (UInt32.not_lt.1 hlt)
        have habove : ¬shift function point 1 < point + 1 := by
          rw [UInt32.lt_iff_toNat_lt, hnext, hmoved]
          omega
        rw [if_neg habove, if_neg hlt, opcode_withImmediate, hmoved, Nat.add_assoc,
          Nat.add_comm 1 count]

end Instruction

/-! ### Sites -/

namespace ReferenceSite

/-- The site once so many instructions were put in front of every body. -/
def behind (count : Nat) : ReferenceSite → ReferenceSite
  | body number instruction => body number (instruction + count)
  | site => site

/-- Is the site none of so many first instructions of a body? -/
def isBehind (count : Nat) : ReferenceSite → Bool
  | body _ instruction => count ≤ instruction
  | _ => true

variable (site : ReferenceSite) (first second : Nat)

theorem behind_two : site.behind 2 = site.behindPrologue := by
  cases site <;> rfl

theorem isBehind_two : site.isBehind 2 = decide (site.isPrologue = false) := by
  cases site with
  | body number instruction =>
      simp only [isBehind, isPrologue, decide_eq_decide, decide_eq_false_iff_not]
      omega
  | _ => rfl

theorem behind_behind : (site.behind first).behind second = site.behind (first + second) := by
  cases site with
  | body number instruction => exact congrArg (body number) (Nat.add_assoc ..)
  | _ => rfl

theorem isBehind_behind : (site.behind second).isBehind (first + second) = site.isBehind first := by
  cases site with
  | body number instruction => exact decide_eq_decide.2 Nat.add_le_add_iff_right
  | _ => rfl

theorem isBehind_add :
    (site.isBehind (first + second) && site.isBehind second) = site.isBehind (first + second) := by
  cases site with
  | body number instruction =>
      simp only [isBehind, ← Bool.decide_and, decide_eq_decide]
      omega
  | _ => rfl

end ReferenceSite

/-! ### Bodies -/

open Metering

variable {config : GasConfig} {rest : List GasConfig} {point functions : UInt32}
  {body metered next other : FunctionBody}

/-- The body pays in one run after another, and behind that every instruction keeps its own bytes
unless it refers to a function that moves. -/
structure BodyStacked (configs : List GasConfig) (point : UInt32) (body stacked : FunctionBody) :
    Prop where
  locals : stacked.locals = body.locals
  code : ∃ d, (∀ base, Disassembly.ofBytesAt base body.code = .ok d) ∧
    stacked.code = payments configs d.instructions.length point.toNat ++
      d.instructions.flatMap (Instruction.movedBytesBy configs.length point)

/-- A body metered once, and read again, is one with a stack of one run. -/
theorem BodyStacked.single (h : BodyMetered config.costModel point functions body metered)
    (hsame : metered.Alike other) : BodyStacked [config] point body other := by
  obtain ⟨d, hanywhere, -, -, hcode⟩ := h.isRead
  refine ⟨hsame.1.trans h.locals, d, hanywhere, ?_⟩
  rw [hsame.2, hcode, config.charge_costModel, payments_cons, List.length_singleton,
    Instruction.movedBytesBy_one]
  rfl

/-- The instructions of a metered body, moved once more: what pays stays, and the others move on. -/
theorem Disassembly.flatMap_movedBytesBy {d : Disassembly} (count : Nat) (charge : Int32)
    (hpoint : point.toNat + 1 < UInt32.size)
    (h : ∀ function ∈ d.references, shift function point 1 < functions) :
    ((d.mapReferences (shift · point 1)).prepend (prologue charge point)).settle.instructions.flatMap
        (Instruction.movedBytesBy count (point + 1)) =
      payment charge point.toNat ++
        d.instructions.flatMap (Instruction.movedBytesBy (count + 1) point) := by
  have hpays : (prologue charge point).flatMap (Instruction.movedBytesBy count (point + 1)) =
      payment charge point.toNat := by
    have hbelow : point < point + 1 := by
      rw [UInt32.lt_iff_toNat_lt, toNat_add_one hpoint]
      omega
    have hcall : (Instruction.call point).movedBytesBy count (point + 1) =
        (Instruction.call point).toBytes := if_pos hbelow
    rw [prologue, List.flatMap_cons, List.flatMap_singleton, hcall]
    rfl
  have hmoves : ∀ i ∈ d.instructions,
      (i.mapFunction (shift · point 1)).movedBytesBy count (point + 1) =
        i.movedBytesBy (count + 1) point := fun i hi =>
    Instruction.movedBytesBy_mapFunction count hpoint fun function hf =>
      h function (List.mem_filterMap.2 ⟨i, hi, hf⟩)
  rw [settle, prepend, mapReferences, List.map_append, List.flatMap_append, List.flatMap_map,
    List.flatMap_map, List.flatMap_map, List.flatMap_map, ← hpays, ← List.flatMap_congr hmoves]
  rfl

/-- One run in front of others: the others count its two instructions, and leave them where they are. -/
theorem BodyStacked.cons (hrest : BodyStacked rest (point + 1) next other)
    (h : BodyMetered config.costModel point functions body metered) (hsame : metered.Alike next)
    (hpoint : point.toNat + 1 < UInt32.size) : BodyStacked (config :: rest) point body other := by
  obtain ⟨d, hd, hresolve, hcode⟩ := h.disassembled
  obtain ⟨hread, hassemble⟩ := Disassembly.ofBytesAt_eq_ok_iff.1 hd
  have hreadable := hread.readable_metered (config.costModel.charge d.instructions) point
  obtain ⟨d', hd', hstacked⟩ := hrest.code
  -- The later runs read what this run assembled, so their instructions are those of the edited body.
  have hbetween := hd' 0
  rw [hsame.2, hcode, hreadable.ofBytesAt_assemble] at hbetween
  cases hbetween
  refine ⟨hrest.locals.trans (hsame.1.trans h.locals), d, fun base =>
    Disassembly.ofBytesAt_eq_ok_iff.2 ⟨hread, hassemble⟩, ?_⟩
  have hlength : ((d.mapReferences (shift · point 1)).prepend
      (prologue (config.costModel.charge d.instructions) point)).settle.instructions.length =
        d.instructions.length + 2 := by
    simp only [Disassembly.settle, Disassembly.prepend, Disassembly.mapReferences, prologue,
      List.length_map, List.length_append, List.length_cons, List.length_nil]
    omega
  rw [hstacked, Disassembly.flatMap_movedBytesBy _ _ hpoint hresolve, hlength,
    config.charge_costModel, payments_cons, toNat_add_one hpoint, List.append_assoc,
    List.length_cons]

/-! ### Modules -/

/-- The module was metered in one run after another. There is one import for each run, all of one
type, which was there or is new; references go to the functions they went to, and bodies pay for
every run. -/
structure Stacked (configs : List GasConfig) (m other : Module) : Prop where
  typesAndImports : ∃ typeIndex : UInt32,
    Reserves gasType m.typeEntries other.typeEntries typeIndex.toNat ∧
      other.importEntries = m.importEntries ++ configs.map (gasImport · typeIndex)
  declarations : other.declarations = m.declarations
  references : ∃ sites sites', m.referenceSites = .ok sites ∧ other.referenceSites = .ok sites' ∧
    sites'.filter (·.1.isBehind (2 * configs.length)) = sites.map fun r =>
      (r.1.behind (2 * configs.length), shift r.2 m.insertionPoint configs.length.toUInt32)
  bodies : List.Forall₂ (BodyStacked configs m.insertionPoint) m.bodies other.bodies

variable {m between other : Module} {result : Metered}

theorem Metering.Outcome.sitesBehind {costs : CostModel} (h : Outcome m config costs result) :
    ∃ sites sites', m.referenceSites = .ok sites ∧ result.module.referenceSites = .ok sites' ∧
      sites'.filter (·.1.isBehind 2) =
        sites.map fun r => (r.1.behind 2, shift r.2 m.insertionPoint 1) := by
  obtain ⟨sites, sites', hsites, hsites', hothers, -, -⟩ := h.referenceSites
  refine ⟨sites, sites', hsites, hsites', ?_⟩
  simp only [ReferenceSite.isBehind_two, ReferenceSite.behind_two]
  exact hothers

/-- A single run. -/
theorem Stacked.single (h : Outcome m config config.costModel result)
    (hsame : result.module.Alike other) (htypes : m.typeEntries.length + 1 < 2 ^ 32) :
    Stacked [config] m other := by
  refine ⟨?_, hsame.declarations.trans h.declarations, ?_, ?_⟩
  · obtain ⟨position, hreserves, himports⟩ := h.entries
    have hlt := hreserves.lt_length
    have hle := hreserves.length_le.2
    have hindex : position.toUInt32.toNat = position :=
      UInt32.toNat_ofNat_of_lt' (show position < 2 ^ 32 by omega)
    refine ⟨position.toUInt32, ?_, hsame.importEntries.trans himports⟩
    rwa [hsame.typeEntries, hindex]
  · obtain ⟨sites, sites', hsites, hsites', hbehind⟩ := h.sitesBehind
    exact ⟨sites, sites', hsites, hsame.referenceSites hsites', hbehind⟩
  · exact forall₂_trans h.bodies hsame.bodies fun _ _ _ => BodyStacked.single

/-- The next run puts its import behind the one of this run. -/
theorem insertionPoint_next (h : Outcome m config config.costModel result)
    (hsame : result.module.Alike between) : between.insertionPoint = m.insertionPoint + 1 := by
  obtain ⟨typeIndex, himports⟩ := h.importEntries
  have hgas : (gasImport config typeIndex).type.kind = .function := rfl
  rw [Module.insertionPoint, Module.importedCount, hsame.importEntries, himports,
    List.countP_append, List.countP_singleton, if_pos (decide_eq_true hgas)]
  exact UInt32.ofNat_add _ _

/-- Sites behind what one run put in front, and then behind what later runs did. -/
theorem filter_isBehind {sites sites' sites'' : List (ReferenceSite × UInt32)}
    {f g : UInt32 → UInt32} {first second : Nat}
    (h : sites'.filter (·.1.isBehind first) = sites.map fun r => (r.1.behind first, f r.2))
    (h' : sites''.filter (·.1.isBehind second) = sites'.map fun r => (r.1.behind second, g r.2)) :
    sites''.filter (·.1.isBehind (first + second)) =
      sites.map fun r => (r.1.behind (first + second), g (f r.2)) := by
  calc sites''.filter (·.1.isBehind (first + second))
      = (sites''.filter (·.1.isBehind second)).filter (·.1.isBehind (first + second)) := by
        rw [List.filter_filter]
        exact List.filter_congr fun r _ => (r.1.isBehind_add first second).symm
    _ = (sites'.filter (·.1.isBehind first)).map fun r => (r.1.behind second, g r.2) := by
        rw [h', List.filter_map]
        congr 1
        exact List.filter_congr fun r _ => r.1.isBehind_behind first second
    _ = sites.map fun r => (r.1.behind (first + second), g (f r.2)) := by
        rw [h, List.map_map]
        exact List.map_congr_left fun r _ => by
          rw [Function.comp_apply, ReferenceSite.behind_behind]

/-- One run in front of others. -/
theorem Stacked.cons (hrest : Stacked rest between other)
    (h : Outcome m config config.costModel result) (hsame : result.module.Alike between)
    (hcount : m.functionSpace.length + (rest.length + 1) < 2 ^ 32) :
    Stacked (config :: rest) m other := by
  have hle := m.toNat_insertionPoint_le
  have hsize : UInt32.size = 2 ^ 32 := rfl
  have hpoint : m.insertionPoint.toNat + 1 < UInt32.size := by omega
  have hnext := insertionPoint_next h hsame
  refine ⟨?_, hrest.declarations.trans (hsame.declarations.trans h.declarations), ?_, ?_⟩
  · obtain ⟨position, hreserves, himports⟩ := h.entries
    obtain ⟨typeIndex, hagain, hlater⟩ := hrest.typesAndImports
    rw [hsame.typeEntries] at hagain
    -- The first run settles the type; the later ones find it where it is.
    obtain ⟨htypes, rfl⟩ := hreserves.again hagain
    refine ⟨typeIndex, ?_, ?_⟩
    · rwa [htypes]
    · rw [hlater, hsame.importEntries, himports, List.append_assoc]
      simp
  · obtain ⟨sites, sites', hsites, hsites', hbehind⟩ := h.sitesBehind
    obtain ⟨_, sites'', hbetween, hsites'', hlater⟩ := hrest.references
    cases (hsame.referenceSites hsites').symm.trans hbetween
    rw [hnext] at hlater
    refine ⟨sites, sites'', hsites, hsites'', ?_⟩
    have hruns : 2 * (config :: rest).length = 2 + 2 * rest.length := by
      rw [List.length_cons, Nat.mul_succ, Nat.add_comm]
    have hlength : rest.length.toUInt32.toNat = rest.length :=
      UInt32.toNat_ofNat_of_lt' (show rest.length < 2 ^ 32 by omega)
    have hmoves : ∀ function, shift (shift function m.insertionPoint 1) (m.insertionPoint + 1)
        rest.length.toUInt32 = shift function m.insertionPoint (config :: rest).length.toUInt32 := by
      intro function
      rw [shift_shift _ _ _ hpoint (by omega), List.length_cons]
      congr 1
      exact (UInt32.ofNat_add _ _).symm
    rw [hruns, filter_isBehind (f := (shift · m.insertionPoint 1))
      (g := (shift · (m.insertionPoint + 1) rest.length.toUInt32)) hbehind hlater]
    simp only [hmoves]
  · have hlater := hrest.bodies
    rw [hnext] at hlater
    have hbetween : List.Forall₂ (fun metered other => ∃ next : FunctionBody,
        metered.Alike next ∧ BodyStacked rest (m.insertionPoint + 1) next other)
        result.module.bodies other.bodies :=
      forall₂_trans hsame.bodies hlater fun _ next _ hsame hstacked => ⟨next, hsame, hstacked⟩
    refine forall₂_trans h.bodies hbetween ?_
    rintro body metered other hbody ⟨next, hsame, hstacked⟩
    exact hstacked.cons hbody hsame hpoint

end WasmMeter
