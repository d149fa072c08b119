import WasmMeter.Gas.Reference
import WasmMeter.Proofs.Disassembly.Editing
import WasmMeter.Proofs.Traversal

/-!
Where a module refers to functions. The sites are listed with the indices that they hold: exports,
the start function, items of element segments, instructions in items and in initializers of globals,
and instructions in bodies.
-/
namespace WasmMeter

/-- A place that holds the index of a function. Entries, items, bodies and the instructions in them
are numbered in their own lists. -/
inductive ReferenceSite where
  | exportEntry (number : Nat)
  | start
  | elementIndex (segment item : Nat)
  | elementExpression (segment item instruction : Nat)
  | globalInitializer (number instruction : Nat)
  | body (number instruction : Nat)
deriving DecidableEq, Repr

namespace ReferenceSite

/-- Is the site one of the two instructions with which a metered body pays its charge? -/
def isPrologue : ReferenceSite → Bool
  | body _ instruction => instruction < 2
  | _ => false

/-- The site in the metered module: instructions of bodies stand behind the two that pay. -/
def behindPrologue : ReferenceSite → ReferenceSite
  | body number instruction => body number (instruction + 2)
  | site => site

theorem isPrologue_behindPrologue (site : ReferenceSite) :
    site.behindPrologue.isPrologue = false := by
  cases site <;> simp [behindPrologue, isPrologue]

end ReferenceSite

variable {α β : Type} {function? : α → Option UInt32} {function?' : β → Option UInt32}
  {f : UInt32 → UInt32}

/-- The references that entries hold, each at the site with the number of its entry. -/
def sitesOf (function? : α → Option UInt32) (site : Nat → ReferenceSite) (entries : List α) :
    List (ReferenceSite × UInt32) :=
  entries.zipIdx.filterMap fun (entry, number) => (function? entry).map (site number, ·)

theorem map_snd_sitesOf (site : Nat → ReferenceSite) (entries : List α) :
    (sitesOf function? site entries).map (·.2) = entries.filterMap function? := by
  calc (sitesOf function? site entries).map (·.2)
      = entries.zipIdx.filterMap (function? ∘ Prod.fst) := by
        rw [sitesOf, List.map_filterMap]
        congr 1
        funext ⟨entry, number⟩
        exact Option.map_map .. |>.trans Option.map_id'
    _ = entries.filterMap function? := by rw [← List.filterMap_map, List.zipIdx_map_fst]

/-- A change of entries that changes their references moves the sites of those. -/
theorem sitesOf_map {change : α → β}
    (h : ∀ entry, function?' (change entry) = (function? entry).map f)
    {site site' : Nat → ReferenceSite} {move : ReferenceSite → ReferenceSite}
    (hsite : ∀ number, site' number = move (site number)) (entries : List α) :
    sitesOf function?' site' (entries.map change) =
      (sitesOf function? site entries).map fun r => (move r.1, f r.2) := by
  rw [sitesOf, sitesOf, List.zipIdx_map, List.filterMap_map, List.map_filterMap]
  congr 1
  funext ⟨entry, number⟩
  simp only [Function.comp_apply, Prod.map_apply, id, h, hsite, Option.map_map]
  rfl

/-- The sites of two lists in a row, the second counting on from the length of the first. -/
theorem sitesOf_append (site : Nat → ReferenceSite) (front entries : List α) :
    sitesOf function? site (front ++ entries) = sitesOf function? site front ++
      sitesOf function? (fun number => site (number + front.length)) entries := by
  rw [sitesOf, List.zipIdx_append, List.filterMap_append, Nat.zero_add, sitesOf, sitesOf,
    ← Nat.add_zero front.length, ← List.map_snd_add_zipIdx_eq_zipIdx, List.filterMap_map]
  rfl

namespace Disassembly

/-- The references of the instructions, each at the site of its instruction. -/
def sites (site : Nat → ReferenceSite) (d : Disassembly) : List (ReferenceSite × UInt32) :=
  sitesOf Instruction.function? site d.instructions

variable {d : Disassembly} {site site' : Nat → ReferenceSite}

theorem sites_settle (d : Disassembly) : d.settle.sites site = d.sites site := by
  rw [sites, settle, sitesOf_map (fun _ => Option.map_id'.symm) fun _ => (id_eq _).symm]
  exact List.map_id _

/-- Replacing functions replaces them at their sites, wherever those are said to be. -/
theorem sites_mapReferences (f : UInt32 → UInt32) {move : ReferenceSite → ReferenceSite}
    (hsite : ∀ number, site' number = move (site number)) :
    (d.mapReferences f).sites site' = (d.sites site).map fun r => (move r.1, f r.2) :=
  sitesOf_map (Instruction.function?_mapFunction f) hsite d.instructions

/-- Instructions put in front come first, and move every later site by their number. -/
theorem sites_prepend (d : Disassembly) (front : List Instruction) :
    (d.prepend front).sites site = sites site ⟨front⟩ ++
      d.sites fun position => site (position + front.length) := by
  have hmoved : ∀ site, sitesOf Instruction.function? site
      (d.instructions.map (moveOpener front.length)) = d.sites site := fun site => by
    rw [sitesOf_map (fun _ => Option.map_id'.symm) fun _ => (id_eq _).symm]
    exact List.map_id _
  rw [sites, prepend, sitesOf_append, hmoved]
  rfl

end Disassembly

/-! ### Sites of a module -/

/-- The sites in an expression. -/
def ConstExpr.sites (site : Nat → ReferenceSite) (expression : ConstExpr) :
    Except Error (List (ReferenceSite × UInt32)) := do
  return (← Disassembly.ofBytes expression.bytes).sites site

def ElementItems.sites (segment : Nat) :
    ElementItems → Except Error (List (ReferenceSite × UInt32))
  | .indices functions =>
      return sitesOf some (.elementIndex segment) functions
  | .expressions slots =>
      collect (fun item slot => slot.sites (.elementExpression segment item)) slots

/-- The sites in a numbered segment. -/
def ElementSegment.sites (number : Nat) (segment : ElementSegment) :
    Except Error (List (ReferenceSite × UInt32)) :=
  segment.items.sites number

/-- The sites in the initializer of a numbered global. -/
def Global.sites (number : Nat) (entry : Global) : Except Error (List (ReferenceSite × UInt32)) :=
  entry.init.sites (.globalInitializer number)

/-- The sites in a numbered body. -/
def FunctionBody.sites (number : Nat) (body : FunctionBody) :
    Except Error (List (ReferenceSite × UInt32)) := do
  return (← Disassembly.ofBytesAt body.codeOffset body.code).sites (.body number)

namespace Module

abbrev bodies (m : Module) : List FunctionBody := (m.contents? .code).getD []

def exportSites (m : Module) : List (ReferenceSite × UInt32) :=
  sitesOf Export.function? .exportEntry m.exportEntries

def startSites (m : Module) : List (ReferenceSite × UInt32) :=
  (m.contents? .start).toList.map (.start, ·)

def sitesOutsideCode (m : Module) : Except Error (List (ReferenceSite × UInt32)) := do
  let segments ← collect ElementSegment.sites m.elementSegments
  let globals ← collect Global.sites m.globalEntries
  return m.exportSites ++ m.startSites ++ segments ++ globals

/-- Every site of the module with the index that it holds, in order. -/
def referenceSites (m : Module) : Except Error (List (ReferenceSite × UInt32)) := do
  let outside ← m.sitesOutsideCode
  let inside ← collect FunctionBody.sites m.bodies
  return outside ++ inside

/-- The reference sites of a module are those outside the code followed by those in it. -/
theorem referenceSites_eq_ok_iff {m : Module} {sites : List (ReferenceSite × UInt32)} :
    m.referenceSites = .ok sites ↔ ∃ outside inside, m.sitesOutsideCode = .ok outside ∧
      collect FunctionBody.sites m.bodies = .ok inside ∧ outside ++ inside = sites := by
  unfold referenceSites
  constructor
  · intro h
    obtain ⟨outside, houtside, h⟩ := ok_of_bind_iff.1 h
    obtain ⟨inside, hinside, h⟩ := ok_of_bind_iff.1 h
    exact ⟨outside, inside, houtside, hinside, ok_of_pure_iff.1 h⟩
  · rintro ⟨outside, inside, houtside, hinside, rfl⟩
    exact ok_of_bind_iff.2 ⟨outside, houtside, ok_of_bind_iff.2 ⟨inside, hinside, rfl⟩⟩

end Module

/-! ### Sites and the references that are checked -/

variable {found : List (ReferenceSite × UInt32)}

theorem ConstExpr.references_of_sites {expression : ConstExpr} {site : Nat → ReferenceSite}
    (h : expression.sites site = .ok found) : expression.references = .ok (found.map (·.2)) := by
  obtain ⟨d, hd, h⟩ := ok_of_bind_iff.1 h
  obtain rfl := ok_of_pure_iff.1 h
  rw [references, hd, Disassembly.sites, map_snd_sitesOf]
  rfl

theorem ElementItems.references_of_sites {items : ElementItems} {segment : Nat}
    (h : items.sites segment = .ok found) : items.references = .ok (found.map (·.2)) := by
  cases items with
  | indices functions =>
      obtain rfl := ok_of_pure_iff.1 h
      rw [map_snd_sitesOf, List.filterMap_some]
      rfl
  | expressions slots =>
      have hslots : collect (fun item slot => slot.sites (.elementExpression segment item)) slots =
        .ok found := h
      obtain ⟨answers, hanswers, hvalues⟩ := mapM_of_collect (f := fun slot => slot.1.references)
        hslots fun _ _ part hpart => ⟨_, ConstExpr.references_of_sites hpart, List.map_id _⟩
      have hall : slots.mapM ConstExpr.references = .ok answers := by
        rw [← List.zipIdx_map_fst 0 slots, List.mapM_map]
        exact hanswers
      rw [List.map_id] at hvalues
      rw [references, hall, ← hvalues]
      rfl

namespace Module

variable {m : Module}

/-- What is found in numbered entries is what the check of their references sees. -/
theorem mapM_sites_of_collect {α : Type}
    {find : Nat → α → Except Error (List (ReferenceSite × UInt32))}
    {f : α → Except Error (List UInt32)} {entries : List α} (site : Nat → Site)
    (h : collect find entries = .ok found)
    (hstep : ∀ n a part, find n a = .ok part → f a = .ok (part.map (·.2))) :
    ∃ references, ((sites site entries).mapM fun (site, entry) => do
        return (← f entry).map (site, ·)) = .ok references ∧
      references.flatten.map (·.2) = found.map (·.2) := by
  rw [sites, List.mapM_map]
  refine mapM_of_collect h fun n a part hpart => ⟨(part.map (·.2)).map (site n, ·), ?_, ?_⟩
  · show (do return (← f a).map (site n, ·)) = _
    rw [hstep n a part hpart]
    rfl
  · rw [List.map_map]
    exact List.map_id _

/-- The references outside the code that are checked are those at the sites outside the code. -/
theorem functionReferences_of_sites (h : m.sitesOutsideCode = .ok found) :
    ∃ references, m.functionReferences = .ok references ∧
      references.map (·.2) = found.map (·.2) := by
  obtain ⟨segments, hsegments, h⟩ := ok_of_bind_iff.1 h
  obtain ⟨globals, hglobals, h⟩ := ok_of_bind_iff.1 h
  obtain rfl := ok_of_pure_iff.1 h
  obtain ⟨segmentReferences, hsegments, hsegmentValues⟩ :=
    mapM_sites_of_collect (f := ElementSegment.references) .elementSegment hsegments
      fun _ _ _ => ElementItems.references_of_sites
  obtain ⟨globalReferences, hglobals, hglobalValues⟩ :=
    mapM_sites_of_collect (f := Global.references) .globalInitializer hglobals
      fun _ _ _ => ConstExpr.references_of_sites
  rw [functionReferences, hsegments, hglobals]
  refine ⟨_, rfl, ?_⟩
  have hexported : (m.exportEntries.filterMap fun entry =>
      entry.function?.map (Site.exportEntry entry.name, ·)).map (·.2) =
        m.exportSites.map (·.2) := by
    rw [exportSites, map_snd_sitesOf, List.map_filterMap]
    congr 1
    funext entry
    exact Option.map_map .. |>.trans Option.map_id'
  have hstarted : ((m.contents? .start).toList.map (Site.start, ·)).map (·.2) =
      m.startSites.map (·.2) := by
    rw [startSites, List.map_map, List.map_map]
    rfl
  simp only [List.map_append, hexported, hstarted, hsegmentValues, hglobalValues]

end Module

end WasmMeter
