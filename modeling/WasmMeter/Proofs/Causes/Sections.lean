import WasmMeter.Proofs.Disassembly.Delimitation
import WasmMeter.Proofs.Module.Frames
import WasmMeter.Proofs.Reading.Contents

/-!
Which errors reading can raise. Whoever knows where a structure ends says so when its bytes run out, so
running out of input is an error of the structure at every level but the outermost one, the header.
-/
namespace WasmMeter

open Reader

namespace Reader

variable {α β : Type} {kinds more : List Error.Kind} {r : Reader α}

/-- Every error of the reader is of one of the kinds. -/
def Raises (kinds : List Error.Kind) (r : Reader α) : Prop :=
  ∀ c e d, r c = .error e d → e.kind ∈ kinds

/-! ### Combinations -/

/-- More kinds may be allowed for than are raised. -/
theorem Raises.mono (hr : Raises kinds r) (hmore : ∀ kind ∈ kinds, kind ∈ more) : Raises more r :=
  fun c e d h => hmore e.kind (hr c e d h)

/-- What is refused, for good or for want of bytes, is refused with one of these kinds. -/
theorem Refuses.raises {short : Error.Kind} {lasting : List Error.Kind}
    (hr : Refuses short lasting r) : Raises (short :: lasting) r := by
  intro c e d h
  rcases hr c e d h with rfl | ⟨hlasting, -⟩
  · exact List.mem_cons_self
  · exact List.mem_cons_of_mem _ hlasting

theorem raises_pure (a : α) : Raises kinds (pure a) :=
  fun _ _ _ h => absurd h pure_ne_error

/-- A single error is of its own kind. -/
theorem raises_throw {error : Error} (h : error.kind ∈ kinds) :
    Raises kinds (throw error : Reader α) := by
  intro c e d hthrow
  obtain ⟨rfl, -⟩ := throw_eq_error_iff.1 hthrow
  exact h

/-- An error comes from the first part or from the second. -/
theorem Raises.bind {f : α → Reader β} (hr : Raises kinds r) (hf : ∀ a, Raises kinds (f a)) :
    Raises kinds (r >>= f) := by
  intro c e d h
  rcases bind_eq_error_iff.1 h with h | ⟨a, middle, -, h⟩
  · exact hr c e d h
  · exact hf a middle e d h

theorem raises_position_bind {f : Nat → Reader α} (hf : ∀ start, Raises kinds (f start)) :
    Raises kinds (position >>= f) :=
  fun c e d h => hf c.position c e d h

theorem Raises.bind_pure (hr : Raises kinds r) (f : α → β) :
    Raises kinds (r >>= fun a => pure (f a)) :=
  hr.bind fun a => raises_pure (f a)

theorem Raises.map (hr : Raises kinds r) (f : α → β) : Raises kinds (f <$> r) :=
  fun c e d h => hr c e d (map_eq_error_iff.1 h)

theorem Raises.ite {condition : Prop} [Decidable condition] {other : Reader α}
    (hr : Raises kinds r) (hother : Raises kinds other) :
    Raises kinds (if condition then r else other) := by
  split
  · exact hr
  · exact hother

/-- What flags may leave out. -/
theorem Raises.option (hr : Raises kinds r) (condition : Prop) [Decidable condition] :
    Raises kinds (if condition then some <$> r else pure none) :=
  (hr.map some).ite (raises_pure none)

/-- To keep the source raises nothing. -/
theorem Raises.withSource (hr : Raises kinds r) : Raises kinds (withSource r) :=
  fun c e d h => hr c e d (withSource_eq_error_iff.1 h)

/-- An error inside of a window is raised outside as it is. -/
theorem Raises.within (hr : Raises kinds r) (w : Cursor) : Raises kinds (within w r) := by
  intro c e d h
  obtain ⟨⟨inner, h⟩, -⟩ := within_eq_error_iff.1 h
  exact hr w e inner h

/-- Errors are of the kinds that they are replaced by. -/
theorem Raises.adaptExcept {f : Error → Error} (hr : Raises kinds r)
    (hf : ∀ e : Error, e.kind ∈ kinds → (f e).kind ∈ more) : Raises more (r.adaptExcept f) := by
  intro c e d h
  obtain ⟨cause, hcause, rfl⟩ := adaptExcept_eq_error_iff.1 h
  exact hf cause (hr c cause d hcause)

/-- The end of the input becomes what the structure makes of it. -/
theorem Raises.mapEnd {cause : Nat → Error} (hr : Raises (.unexpectedEnd :: kinds) r)
    (hcause : ∀ position, (cause position).kind ∈ kinds) : Raises kinds (mapEnd cause r) := by
  refine hr.adaptExcept fun e he => ?_
  rcases List.mem_cons.1 he with hend | he
  · obtain ⟨position, wanted, rfl⟩ := Error.eq_unexpectedEnd_of_kind hend
    exact hcause position
  · cases e with
    | unexpectedEnd position wanted => exact hcause position
    | _ => exact he

/-- Every item may fail, in the same ways. -/
theorem Raises.times (hr : Raises kinds r) (n : Nat) : Raises kinds (times n r) := by
  induction n with
  | zero => exact raises_pure []
  | succ n ih =>
      rw [times_succ]
      exact hr.bind fun a => ih.bind_pure (a :: ·)

/-- To take all that is left never fails. -/
theorem raises_takeRest : Raises kinds takeRest := by
  intro c e d h
  cases h

/-- A window may be too large, and nothing else is wrong with it. -/
theorem raises_window (n : Nat) : Raises (.unexpectedEnd :: kinds) (window n) := by
  intro c e d h
  obtain ⟨-, rfl, -⟩ := window_eq_error_iff.1 h
  exact List.mem_cons_self

/-! ### Entries -/

/-- What may be wrong with a section, its length or its contents. -/
def sectionKinds : List Error.Kind := .malformedSection :: Disassembly.codeKinds

/-- What may be wrong with an entry, behind which the section may end or not. -/
def entryKinds : List Error.Kind := .unexpectedEnd :: sectionKinds

/-- A flaw is what its section is malformed by. -/
theorem mem_sectionKinds_malformed (kind : SectionKind) (flaw : SectionFlaw) (position : Nat) :
    (kind.malformed flaw position).kind ∈ sectionKinds :=
  List.mem_cons_self

theorem mem_entryKinds_malformed (kind : SectionKind) (flaw : SectionFlaw) (position : Nat) :
    (kind.malformed flaw position).kind ∈ entryKinds :=
  List.mem_cons_of_mem _ (mem_sectionKinds_malformed kind flaw position)

/-- Numbers and bytes fail in an entry as they do in an instruction. -/
theorem Refuses.raises_entry (hr : Refuses .unexpectedEnd Disassembly.codeKinds r) :
    Raises entryKinds r := by
  intro c e d h
  rcases hr c e d h with hend | ⟨hcode, -⟩
  · exact hend ▸ List.mem_cons_self
  · exact List.mem_cons_of_mem _ (List.mem_cons_of_mem _ hcode)

/-- An entry may end too early in any of its parts. -/
theorem raises_byte : Raises entryKinds byte := Refuses.raises_entry refuses_byte

/-- An integer may not fit besides. -/
theorem raises_uint32 : Raises entryKinds uint32 := Refuses.raises_entry (refuses_uint32 (by decide))

theorem raises_uint64 : Raises entryKinds uint64 := Refuses.raises_entry (refuses_uint64 (by decide))

theorem raises_bytes : Raises entryKinds Reader.bytes :=
  raises_uint32.bind fun _ => Refuses.raises_entry (refuses_take _)

/-- The number of items is an integer, and the items are as they are. -/
theorem Raises.vector (hr : Raises entryKinds r) : Raises entryKinds (vector r) :=
  raises_uint32.bind fun n => hr.times n.toNat

variable (kind : SectionKind)

/-- A flaw may be raised in every entry. -/
theorem raises_malformed (flaw : SectionFlaw) (position : Nat) :
    Raises entryKinds (throw (kind.malformed flaw position) : Reader α) :=
  raises_throw (mem_entryKinds_malformed kind flaw position)

/-- A name may be no text. -/
theorem raises_name : Raises entryKinds (name kind) := by
  refine raises_position_bind fun start => raises_bytes.bind fun bytes => ?_
  split
  · exact raises_pure _
  · exact raises_malformed kind _ start

theorem raises_entryType : Raises entryKinds (entryType kind) := by
  refine raises_position_bind fun start => raises_byte.bind fun b => ?_
  split
  · exact raises_pure _
  · exact raises_malformed kind _ start

/-- The form of a function type may be wrong, and an entry of it may be no type. -/
theorem raises_functionType : Raises entryKinds (functionType kind) := by
  refine raises_position_bind fun start => raises_byte.bind fun form =>
    .ite ?_ (raises_malformed kind _ start)
  exact (raises_entryType kind).vector.bind fun _ => (raises_entryType kind).vector.bind_pure _

theorem raises_bound (flags : UInt8) : Raises entryKinds (bound flags) :=
  raises_uint64.ite (raises_uint32.map _)

/-- The flags of limits may be unknown, and a bound may not fit. -/
theorem raises_limits : Raises entryKinds (limits kind) := by
  rw [limits_eq]
  refine raises_position_bind fun start => raises_byte.bind fun flags =>
    .ite ?_ (raises_malformed kind _ start)
  exact (raises_bound flags).bind fun _ => ((raises_bound flags).option _).bind_pure _

theorem raises_tableType : Raises entryKinds (tableType kind) :=
  (raises_entryType kind).bind fun _ => (raises_limits kind).bind_pure _

/-- A mutability may be unknown. -/
theorem raises_globalType : Raises entryKinds (globalType kind) := by
  refine (raises_entryType kind).bind fun content => raises_position_bind fun start =>
    raises_byte.bind fun b => ?_
  split
  · exact raises_pure _
  · exact raises_pure _
  · exact raises_malformed kind _ start

/-- The kind of an import or export may be unknown. -/
theorem raises_externalKind (flaw : SectionFlaw) : Raises entryKinds (externalKind kind flaw) := by
  refine raises_position_bind fun start => raises_byte.bind fun b => ?_
  split
  · exact raises_pure _
  · exact raises_malformed kind _ start

/-- What follows the kind of an import is a type, limits or an index. -/
theorem raises_importType (external : ExternalKind) :
    Raises entryKinds (importType kind external) := by
  cases external with
  | function => exact raises_uint32.map _
  | table => exact (raises_tableType kind).map _
  | memory => exact (raises_limits kind).map _
  | global => exact (raises_globalType kind).map _

theorem raises_importEntry : Raises entryKinds (importEntry kind) :=
  (raises_name kind).bind fun _ => (raises_name kind).bind fun _ =>
    (raises_externalKind kind _).bind fun external => (raises_importType kind external).bind_pure _

theorem raises_exportEntry : Raises entryKinds (exportEntry kind) :=
  (raises_name kind).bind fun _ => (raises_externalKind kind _).bind fun _ =>
    raises_uint32.bind_pure _

/-- Code that ends too early is an error of the section. -/
theorem raises_constExpr : Raises entryKinds (constExpr kind) := by
  have hread : Raises (.truncatedBody :: Disassembly.codeKinds) (withSource Disassembly.read) :=
    (Refuses.raises Disassembly.refuses_read).withSource
  refine (hread.adaptExcept fun e he => ?_).bind_pure _
  rcases List.mem_cons.1 he with hcut | he
  · obtain ⟨position, rfl⟩ := Error.eq_truncatedBody_of_kind hcut
    exact mem_entryKinds_malformed kind _ position
  · cases e with
    | truncatedBody position => exact mem_entryKinds_malformed kind _ position
    | _ => exact List.mem_cons_of_mem _ (List.mem_cons_of_mem _ he)

theorem raises_global : Raises entryKinds (global kind) :=
  (raises_globalType kind).bind fun _ => (raises_constExpr kind).bind_pure _

/-- Items are indices or expressions. -/
theorem raises_elementItems (flags : UInt32) : Raises entryKinds (elementItems kind flags) :=
  ((raises_constExpr kind).vector.map _).ite (raises_uint32.vector.map _)

/-- The flags of a segment may be unknown, and its expressions may be wrong as code is. -/
theorem raises_elementSegment : Raises entryKinds (elementSegment kind) := by
  rw [elementSegment_eq]
  refine raises_position_bind fun start => raises_uint32.bind fun flags =>
    .ite (raises_malformed kind _ start) ?_
  exact (raises_uint32.ite (raises_pure 0)).bind fun _ =>
    ((raises_constExpr kind).option _).bind fun _ => (raises_byte.option _).bind
      fun _ => (raises_elementItems kind flags).bind_pure _

/-- The same for data. -/
theorem raises_dataSegment : Raises entryKinds (dataSegment kind) := by
  rw [dataSegment_eq]
  refine raises_position_bind fun start => raises_uint32.bind fun flags =>
    .ite (raises_malformed kind _ start) ?_
  exact (raises_uint32.ite (raises_pure 0)).bind fun _ =>
    ((raises_constExpr kind).option _).bind fun _ => raises_bytes.bind_pure _

/-! ### Bodies and whole contents -/

theorem raises_localRun : Raises entryKinds (localRun kind) :=
  raises_uint32.bind fun _ => (raises_entryType kind).bind_pure _

/-- The code of a body is not looked at, so only its locals can be wrong. -/
theorem raises_bodyContents : Raises entryKinds (bodyContents kind) :=
  (raises_localRun kind).vector.bind fun _ => raises_position_bind fun _ =>
    raises_takeRest.bind_pure _

/-- A body may be larger than its section. -/
theorem raises_functionBody : Raises entryKinds (functionBody kind) := by
  refine raises_uint32.bind fun size => raises_position_bind fun start => ?_
  have hwindow : Raises entryKinds
      (mapEnd (fun _ => kind.malformed .bodyExceedsSection start) (window size.toNat)) :=
    (raises_window size.toNat).mapEnd fun _ => mem_entryKinds_malformed kind _ start
  exact hwindow.bind fun inside => ((raises_bodyContents kind).within inside).bind_pure _

theorem raises_customSection : Raises entryKinds (customSection kind) :=
  (raises_name kind).bind fun _ => raises_takeRest.bind_pure _

/-- Whatever the kind, nothing but this is wrong with contents. -/
theorem raises_contents : (kind : SectionKind) → Raises entryKinds (contents kind)
  | .custom => raises_customSection .custom
  | .types => (raises_functionType .types).vector
  | .imports => (raises_importEntry .imports).vector
  | .functions => raises_uint32.vector
  | .tables => (raises_tableType .tables).vector
  | .memories => (raises_limits .memories).vector
  | .globals => (raises_global .globals).vector
  | .exports => (raises_exportEntry .exports).vector
  | .start => raises_uint32
  | .elements => (raises_elementSegment .elements).vector
  | .code => (raises_functionBody .code).vector
  | .data => (raises_dataSegment .data).vector
  | .dataCount => raises_uint32

/-! ### Sections and modules -/

/-- Within a section, nothing ends unexpectedly. -/
theorem raises_sectionContents : Raises sectionKinds (sectionContents kind) := by
  have hend (flaw : SectionFlaw) (position : Nat) :
      (kind.malformed flaw position).kind ∈ sectionKinds :=
    mem_sectionKinds_malformed kind flaw position
  refine (raises_uint32.mapEnd (hend _)).bind fun size => raises_position_bind fun first => ?_
  refine ((raises_window size.toNat).mapEnd fun _ => hend _ first).bind fun inside => ?_
  have hpayload : Raises entryKinds (payload kind) := (raises_contents kind).bind_pure _
  refine ((hpayload.mapEnd (hend _)).within inside).bind fun ⟨payload, rest⟩ => ?_
  dsimp only
  split
  · exact (raises_throw (hend _ rest.position)).bind fun _ =>
      raises_position_bind fun _ => raises_pure _
  · exact raises_position_bind fun _ => raises_pure _

/-- Where something is left to read there is a section id. -/
theorem kind_of_sectionKind {c d : Cursor} {e : Error} (hc : c.isEmpty = false)
    (h : sectionKind c = .error e d) : e.kind = .malformedSection := by
  rw [sectionKind, position_bind] at h
  rcases bind_eq_error_iff.1 h with h | ⟨id, middle, -, h⟩
  · obtain ⟨hu, -⟩ := byte_eq_error_iff.1 h
    rw [Cursor.isEmpty, hu] at hc
    cases hc
  · cases hkind : SectionKind.ofByte? id with
    | some kind =>
        rw [hkind] at h
        exact absurd h pure_ne_error
    | none =>
        rw [hkind] at h
        obtain ⟨rfl, -⟩ := throw_eq_error_iff.1 h
        rfl

/-- A section that ends too early is malformed: behind its first byte, running out of input is an error
of the section. -/
theorem mem_sectionKinds_of_nextSection {p : Module.Progress} {c d : Cursor} {e : Error}
    (hc : c.isEmpty = false) (h : nextSection p c = .error e d) : e.kind ∈ sectionKinds := by
  rw [nextSection, position_bind] at h
  rcases bind_eq_error_iff.1 h with h | ⟨_, _, -, h⟩
  · rcases bind_eq_error_iff.1 (withSource_eq_error_iff.1 h) with h | ⟨kind, middle, -, h⟩
    · rw [kind_of_sectionKind hc h]
      exact List.mem_cons_self
    · cases hrank : Module.nextRank? p.rank kind with
      | none =>
          rw [hrank] at h
          exact raises_throw (mem_sectionKinds_malformed kind _ _) middle e d h
      | some rank =>
          rw [hrank] at h
          exact (raises_sectionContents kind).bind_pure (·, rank) middle e d h
  · exact absurd h pure_ne_error

/-- An error of the loop is one of a section, because a section is only read where something is left. The
induction is on the bytes left to read. -/
theorem mem_sectionKinds_of_whileUnread {p : Module.Progress} {c d : Cursor} {e : Error}
    (h : whileUnread (Sum.inl <$> nextSection ·) (fun p => return ⟨p.done.reverse⟩) p c =
      (.error e d : EStateM.Result Error Cursor Module)) : e.kind ∈ sectionKinds := by
  induction hn : c.remaining using Nat.strongRecOn generalizing p c with
  | ind n ih =>
      subst hn
      rcases (whileUnread_eq_error_iff Module.progresses_nextSection).1 h with
        ⟨-, h⟩ | ⟨hc, h | ⟨q, middle, hq, h⟩⟩
      · exact absurd h pure_ne_error
      · exact mem_sectionKinds_of_nextSection hc (map_eq_error_iff.1 h)
      · exact ih _ (Module.progresses_nextSection p _ _ _ hq) h rfl

/-- A header is wrong, or it is cut short. -/
theorem kind_of_header {c d : Cursor} {e : Error} (h : header c = .error e d) :
    e.kind ∈ [.badMagic, .unsupportedVersion] ∨ e.kind = .unexpectedEnd ∧ c.remaining < 8 := by
  rw [header] at h
  rcases bind_eq_error_iff.1 h with h | ⟨found, middle, hfound, h⟩
  · obtain ⟨hshort, rfl, -⟩ := take_eq_error_iff.1 h
    exact .inr ⟨rfl, by omega⟩
  · obtain ⟨hlength, hu, -⟩ := take_eq_ok_iff.1 hfound
    by_cases hmagic : found = Module.magic
    · rw [if_neg (not_not.2 hmagic)] at h
      rcases bind_eq_error_iff.1 h with h | ⟨version, last, hversion, h⟩
      · rcases bind_eq_error_iff.1 h with h | ⟨_, _, -, h⟩
        · obtain ⟨hshort, rfl, -⟩ := take_eq_error_iff.1 h
          refine .inr ⟨rfl, ?_⟩
          rw [Cursor.remaining] at hshort ⊢
          rw [hu, List.length_append]
          omega
        · exact absurd h pure_ne_error
      · split at h
        · obtain ⟨rfl, -⟩ := throw_eq_error_iff.1 h
          exact .inl (by simp [Error.kind])
        · exact absurd h pure_ne_error
    · rw [if_pos hmagic] at h
      obtain ⟨rfl, -⟩ := throw_eq_error_iff.1 h
      exact .inl (by simp [Error.kind])

end Reader

/-- What may be wrong with a module that is long enough to have a header. -/
def Module.readingKinds : List Error.Kind := [.badMagic, .unsupportedVersion] ++ sectionKinds

/-- Bytes that are no module are refused for their header or for a section; they end unexpectedly only
if they are too short for a header. -/
theorem Module.kind_of_ofBytes {input : List UInt8} {e : Error}
    (h : Module.ofBytes input = .error e) :
    e.kind ∈ Module.readingKinds ∨ e.kind = .unexpectedEnd ∧ input.length < 8 := by
  obtain ⟨d, h⟩ := answer_eq_error_iff.1 h
  rcases bind_eq_error_iff.1 h with h | ⟨_, _, -, h⟩
  · refine (kind_of_header h).imp_left fun hkind => ?_
    exact List.mem_append_left sectionKinds hkind
  · exact .inl (List.mem_append_right _ (mem_sectionKinds_of_whileUnread h))

end WasmMeter
