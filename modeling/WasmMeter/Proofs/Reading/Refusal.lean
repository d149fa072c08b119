import WasmMeter.Proofs.Location.Reading
import WasmMeter.Proofs.Reading.Instruction

/-!
Why a reader fails. Either there is too little to read, which more bytes may mend, or something that was
read is wrong, and then the failure stays whatever follows. Nothing in an instruction fails in a third
way, because no reader of a part of it looks behind the bytes that it takes. As before the property is
proved for the parts and for each way of putting them together.
-/
namespace WasmMeter

/-- What an error is about, without its details. -/
inductive Error.Kind where
  | badMagic
  | unsupportedVersion
  | malformedSection
  | unexpectedEnd
  | invalidLeb128
  | unknownOpcode
  | invalidImmediate
  | unmatchedBlockEnd
  | truncatedBody
  | trailingCode
  | noCodeSection
  | functionCountMismatch
  | indexOutOfRange
deriving DecidableEq, Repr

def Error.kind : Error → Error.Kind
  | .badMagic _ => .badMagic
  | .unsupportedVersion _ => .unsupportedVersion
  | .malformedSection _ _ _ => .malformedSection
  | .unexpectedEnd _ _ => .unexpectedEnd
  | .invalidLeb128 _ => .invalidLeb128
  | .unknownOpcode _ _ _ => .unknownOpcode
  | .invalidImmediate _ _ => .invalidImmediate
  | .unmatchedBlockEnd _ => .unmatchedBlockEnd
  | .truncatedBody _ => .truncatedBody
  | .trailingCode _ => .trailingCode
  | .noCodeSection => .noCodeSection
  | .functionCountMismatch _ _ => .functionCountMismatch
  | .indexOutOfRange _ _ _ _ => .indexOutOfRange

theorem Error.eq_unexpectedEnd_of_kind {e : Error} (h : e.kind = .unexpectedEnd) :
    ∃ position wanted, e = .unexpectedEnd position wanted := by
  cases e <;> cases h
  exact ⟨_, _, rfl⟩

theorem Error.eq_truncatedBody_of_kind {e : Error} (h : e.kind = .truncatedBody) :
    ∃ position, e = .truncatedBody position := by
  cases e <;> cases h
  exact ⟨_, rfl⟩

/-- Only an input that ends too early becomes another error. -/
theorem Error.mapEnd_of_kind_ne {cause : Nat → Error} {e : Error} (h : e.kind ≠ .unexpectedEnd) :
    e.mapEnd cause = e := by
  cases e <;> first | rfl | exact absurd rfl h

namespace Reader

variable {α β σ : Type} {c d : Cursor} {short : Error.Kind} {lasting : List Error.Kind}

/-- The error is of the kind `short`, or it is of a kind in `lasting` and is there whatever follows. -/
def IsRefusal (short : Error.Kind) (lasting : List Error.Kind) (r : Reader α) (c : Cursor)
    (e : Error) : Prop :=
  e.kind = short ∨
    e.kind ∈ lasting ∧ ∀ rest, ∃ d, r ⟨c.unread ++ rest, c.position⟩ = .error e d

/-- The reader fails for want of bytes with an error of the kind `short`, or with a lasting one for
bytes that it has read. -/
def Refuses (short : Error.Kind) (lasting : List Error.Kind) (r : Reader α) : Prop :=
  ∀ c e d, r c = .error e d → IsRefusal short lasting r c e

/-- Where one reader lasts in its failure, so does another that fails with it. -/
theorem IsRefusal.imp {r : Reader α} {other : Reader β} {e : Error}
    (h : IsRefusal short lasting r c e)
    (himp : ∀ rest middle, r ⟨c.unread ++ rest, c.position⟩ = .error e middle →
      other ⟨d.unread ++ rest, d.position⟩ = .error e middle) :
    IsRefusal short lasting other d e := by
  refine Or.imp_right (And.imp_right fun hlasts rest => ?_) h
  obtain ⟨middle, hmiddle⟩ := hlasts rest
  exact ⟨middle, himp rest middle hmiddle⟩

/-- More kinds of lasting errors may be allowed for than there are. -/
theorem Refuses.mono {more : List Error.Kind} {r : Reader α} (h : Refuses short lasting r)
    (hmore : ∀ kind ∈ lasting, kind ∈ more) : Refuses short more r :=
  fun c e d hr => (h c e d hr).imp_right (And.imp_left (hmore e.kind))

theorem refuses_pure (a : α) : Refuses short lasting (pure a) :=
  fun _ _ _ h => absurd h pure_ne_error

/-- An error that is raised without reading is raised whatever follows. -/
theorem refuses_throw {error : Error} (h : error.kind ∈ lasting) :
    Refuses short lasting (throw error : Reader α) := by
  intro c e d hthrow
  obtain ⟨rfl, -⟩ := throw_eq_error_iff.1 hthrow
  exact .inr ⟨h, fun _ => ⟨_, rfl⟩⟩

/-- What goes before is read in the same way in front of more bytes. -/
theorem Refuses.bind {r : Reader α} {f : α → Reader β} (hr : Refuses short lasting r)
    (hs : SelfDelimiting r) (hf : ∀ a, Refuses short lasting (f a)) :
    Refuses short lasting (r >>= f) := by
  intro c e d h
  rcases bind_eq_error_iff.1 h with h | ⟨a, middle, ha, h⟩
  · exact (hr c e d h).imp fun rest d hd => bind_eq_error_iff.2 (.inl hd)
  · exact (hf a middle e d h).imp fun rest d hd =>
      bind_eq_error_iff.2 (.inr ⟨a, _, hs.append ha rest, hd⟩)

/-- The offset at which a reader begins does not depend on what follows. -/
theorem refuses_position_bind {f : Nat → Reader α} (hf : ∀ start, Refuses short lasting (f start)) :
    Refuses short lasting (position >>= f) :=
  fun c e d h => hf c.position c e d h

/-- What is made of an answer is no reason to fail. -/
theorem Refuses.bind_pure {r : Reader α} (hr : Refuses short lasting r) (hs : SelfDelimiting r)
    (f : α → β) : Refuses short lasting (r >>= fun a => pure (f a)) :=
  hr.bind hs fun a => refuses_pure (f a)

theorem Refuses.map {r : Reader α} (hr : Refuses short lasting r) (f : α → β) :
    Refuses short lasting (f <$> r) :=
  fun c e d h => (hr c e d (map_eq_error_iff.1 h)).imp fun _ _ hd => map_eq_error_iff.2 hd

/-- Keeping the source refuses nothing. -/
theorem Refuses.withSource {r : Reader α} (hr : Refuses short lasting r) :
    Refuses short lasting (withSource r) :=
  fun c e d h => (hr c e d (withSource_eq_error_iff.1 h)).imp
    fun _ _ hd => withSource_eq_error_iff.2 hd

/-- A lasting failure is not that the input ends, so it stays what it is. -/
theorem Refuses.mapEnd {r : Reader α} {cause : Nat → Error}
    (hr : Refuses .unexpectedEnd lasting r) (hcause : ∀ position, (cause position).kind = short)
    (hlasting : .unexpectedEnd ∉ lasting) : Refuses short lasting (mapEnd cause r) := by
  intro c e d h
  obtain ⟨error, herror, rfl⟩ := mapEnd_eq_error_iff.1 h
  rcases hr c error d herror with hkind | ⟨hkind, hlasts⟩
  · obtain ⟨position, wanted, rfl⟩ := Error.eq_unexpectedEnd_of_kind hkind
    exact .inl (hcause position)
  · have hsame : error.mapEnd cause = error :=
      Error.mapEnd_of_kind_ne fun hend => hlasting (hend ▸ hkind)
    rw [hsame]
    refine .inr ⟨hkind, fun rest => ?_⟩
    obtain ⟨d', hd⟩ := hlasts rest
    exact ⟨d', mapEnd_eq_error_iff.2 ⟨error, hd, hsame⟩⟩

/-- An item fails behind items that answered, and these answer alike whatever follows. -/
theorem Refuses.times {item : Reader α} (h : Refuses short lasting item) (hs : SelfDelimiting item)
    (n : Nat) : Refuses short lasting (times n item) := by
  induction n with
  | zero => exact refuses_pure []
  | succ n ih =>
      rw [times_succ]
      exact h.bind hs fun a => ih.bind_pure (hs.times n) (a :: ·)

/-! ### Loops -/

variable {step : σ → Reader (σ ⊕ α)} {atEnd : σ → Reader α}

/-- A loop that fails has come to its end, or its step fails, or it fails behind one more step. -/
theorem whileUnread_eq_error_iff (h : ∀ s, Progresses (step s)) {s : σ} {e : Error} :
    whileUnread step atEnd s c = .error e d ↔
      c.isEmpty = true ∧ atEnd s c = .error e d ∨
      c.isEmpty = false ∧ (step s c = .error e d ∨
        ∃ t middle, step s c = .ok (.inl t) middle ∧
          whileUnread step atEnd t middle = .error e d) := by
  rw [whileUnread_eq_iff h]
  simp

/-- Bytes that are there are there with more behind them. -/
theorem isEmpty_append (h : c.isEmpty = false) (rest : List UInt8) :
    (Cursor.mk (c.unread ++ rest) c.position).isEmpty = false := by
  refine isEmpty_append_of_ne_nil (fun hu => ?_) rest c.position
  rw [Cursor.isEmpty, hu] at h
  cases h

/-- A loop that has come to the end of the input is short of bytes. The induction is on the bytes left
to read. -/
theorem Refuses.whileUnread (hp : ∀ s, Progresses (step s)) (hs : ∀ s, SelfDelimiting (step s))
    (h : ∀ s, Refuses short lasting (step s))
    (hend : ∀ {s c e d}, atEnd s c = .error e d → e.kind = short) (s : σ) :
    Refuses short lasting (whileUnread step atEnd s) := by
  intro c e d hloop
  induction hn : c.remaining using Nat.strongRecOn generalizing s c with
  | ind n ih =>
      subst hn
      rcases (whileUnread_eq_error_iff hp).1 hloop with
        ⟨-, hloop⟩ | ⟨hne, hloop | ⟨t, middle, ht, hloop⟩⟩
      · exact .inl (hend hloop)
      · exact (h s c e d hloop).imp fun rest d hd =>
          (whileUnread_eq_error_iff hp).2 (.inr ⟨isEmpty_append hne rest, .inl hd⟩)
      · exact (ih _ (hp s _ _ _ ht) t middle hloop rfl).imp fun rest d hd =>
          (whileUnread_eq_error_iff hp).2
            (.inr ⟨isEmpty_append hne rest, .inr ⟨t, _, (hs s).append ht rest, hd⟩⟩)

/-! ### Integers, words and sequences -/

/-- Reading a byte fails for want of it, and for nothing else. -/
theorem refuses_byte : Refuses .unexpectedEnd lasting byte := by
  intro c e d h
  obtain ⟨-, rfl, -⟩ := byte_eq_error_iff.1 h
  exact .inl rfl

/-- Taking bytes fails for want of them, and for nothing else. -/
theorem refuses_take (n : Nat) : Refuses .unexpectedEnd lasting (take n) := by
  intro c e d h
  obtain ⟨-, rfl, -⟩ := take_eq_error_iff.1 h
  exact .inl rfl

/-- An integer is cut short, or it does not fit. -/
theorem FailsFrom.refuses {start : Nat} {r : Reader α} (h : FailsFrom start r)
    (hlasting : .invalidLeb128 ∈ lasting) : Refuses .unexpectedEnd lasting r := by
  intro c e d hr
  rcases h hr with rfl | ⟨rfl, hlasts⟩
  · exact .inl rfl
  · exact .inr ⟨hlasting, hlasts⟩

/-- A number that does not fit is refused for good, and one that has no end for want of it. -/
theorem refuses_unsigned {width : Nat} (hw : 1 ≤ width) (h : .invalidLeb128 ∈ lasting) :
    Refuses .unexpectedEnd lasting (unsigned width) :=
  refuses_position_bind fun start => FailsFrom.refuses (failsFrom_groups hw start) h

theorem refuses_signed {width : Nat} (hw : 1 ≤ width) (h : .invalidLeb128 ∈ lasting) :
    Refuses .unexpectedEnd lasting (signed width) :=
  refuses_position_bind fun start => FailsFrom.refuses (failsFrom_signedGroups hw start) h

theorem refuses_uint32 (h : .invalidLeb128 ∈ lasting) : Refuses .unexpectedEnd lasting uint32 :=
  (refuses_unsigned (by decide) h).bind_pure (selfDelimiting_unsigned 32) _

theorem refuses_uint64 (h : .invalidLeb128 ∈ lasting) : Refuses .unexpectedEnd lasting uint64 :=
  (refuses_unsigned (by decide) h).bind_pure (selfDelimiting_unsigned 64) _

theorem refuses_int32 (h : .invalidLeb128 ∈ lasting) : Refuses .unexpectedEnd lasting int32 :=
  (refuses_signed (by decide) h).bind_pure (selfDelimiting_signed 32) _

theorem refuses_int64 (h : .invalidLeb128 ∈ lasting) : Refuses .unexpectedEnd lasting int64 :=
  (refuses_signed (by decide) h).bind_pure (selfDelimiting_signed 64) _

theorem refuses_word (width : Nat) : Refuses .unexpectedEnd lasting (word width) :=
  (refuses_take width).bind_pure (selfDelimiting_take width) _

/-- The number in front of a sequence may be wrong by itself, and so may each item. -/
theorem Refuses.vector {item : Reader α} (hitem : Refuses .unexpectedEnd lasting item)
    (hs : SelfDelimiting item) (h : .invalidLeb128 ∈ lasting) :
    Refuses .unexpectedEnd lasting (vector item) :=
  (refuses_uint32 h).bind selfDelimiting_uint32 fun n => hitem.times hs n.toNat

/-! ### Instructions -/

/-- What may be wrong with the bytes of an instruction. -/
def instructionKinds : List Error.Kind := [.invalidLeb128, .unknownOpcode, .invalidImmediate]

/-- A byte that is no value type is wrong for good. -/
theorem refuses_immediateType : Refuses .unexpectedEnd instructionKinds immediateType := by
  refine refuses_position_bind fun start => refuses_byte.bind selfDelimiting_byte fun b => ?_
  split
  · exact refuses_pure _
  · exact refuses_throw (by simp [instructionKinds, Error.kind])

/-- A block type by an index is wrong for good if the index is negative. -/
theorem refuses_blockTypeFrom (start : Nat) (first : UInt8) :
    Refuses .unexpectedEnd instructionKinds (blockTypeFrom start first) := by
  unfold blockTypeFrom
  split
  · exact refuses_byte.bind_pure selfDelimiting_byte _
  · split
    · exact refuses_byte.bind_pure selfDelimiting_byte _
    · refine (refuses_signed (by decide) (by decide)).bind (selfDelimiting_signed 33) fun index => ?_
      split
      · exact refuses_pure _
      · exact refuses_throw (by simp [instructionKinds, Error.kind])

/-- Looking ahead is no reason to fail for want of more than one byte. -/
theorem refuses_blockType : Refuses .unexpectedEnd instructionKinds blockType := by
  intro c e d h
  obtain ⟨unread, place⟩ := c
  cases unread with
  | nil =>
      cases h
      exact .inl rfl
  | cons first unread =>
      rw [blockType_cons] at h
      refine (refuses_blockTypeFrom place first _ e d h).imp fun rest d hd => ?_
      change blockType ⟨first :: (unread ++ rest), place⟩ = _
      rw [blockType_cons]
      exact hd

/-- An opcode is unknown as soon as its one or two parts are there. -/
theorem refuses_opcode : Refuses .unexpectedEnd instructionKinds opcode := by
  refine refuses_byte.bind selfDelimiting_byte fun first => ?_
  split
  · exact (refuses_uint32 (by decide)).bind_pure selfDelimiting_uint32 _
  · exact refuses_pure _

/-- An immediate is cut short, or one of its integers or types is wrong. Its shape decides which. -/
theorem refuses_immediate (shape : Shape) :
    Refuses .unexpectedEnd instructionKinds (immediate shape) := by
  have hs := selfDelimiting_uint32
  have hu : Refuses .unexpectedEnd instructionKinds uint32 := refuses_uint32 (by decide)
  have htype : SelfDelimiting immediateType := selfDelimiting_valueType _
  cases shape with
  | empty => exact refuses_pure _
  | block => exact refuses_blockType.bind_pure selfDelimiting_blockType _
  | index => exact hu.bind_pure hs _
  | branchTable =>
      exact (hu.vector hs (by decide)).bind hs.vector fun _ => hu.bind_pure hs _
  | indirectCall => exact hu.bind hs fun _ => hu.bind_pure hs _
  | memory =>
      refine hu.bind hs fun align => ?_
      have hrest (memory : Option UInt32) : Refuses .unexpectedEnd instructionKinds
          (return Immediate.memory align memory (← uint64)) :=
        (refuses_uint64 (by decide)).bind_pure selfDelimiting_uint64 _
      dsimp only
      split
      · exact (hu.map some).bind (hs.map some) hrest
      · exact (refuses_pure none).bind (selfDelimiting_pure none) hrest
  | i32 => exact (refuses_int32 (by decide)).bind_pure selfDelimiting_int32 _
  | i64 => exact (refuses_int64 (by decide)).bind_pure selfDelimiting_int64 _
  | f32 => exact (refuses_word 4).bind_pure (selfDelimiting_word 4) _
  | f64 => exact (refuses_word 8).bind_pure (selfDelimiting_word 8) _
  | valueTypes =>
      exact (refuses_immediateType.vector htype (by decide)).bind_pure htype.vector _
  | heapType => exact refuses_immediateType.bind_pure htype _
  | indexPair => exact hu.bind hs fun _ => hu.bind_pure hs _

/-- The opcode is there before its immediate is read, and both delimit themselves. -/
theorem refuses_instruction : Refuses .unexpectedEnd instructionKinds instruction := by
  refine refuses_position_bind fun start => refuses_opcode.bind selfDelimiting_opcode
    fun opcode => ?_
  split
  · exact (refuses_immediate _).bind_pure (selfDelimiting_immediate _) _
  · exact refuses_throw (by simp [instructionKinds, Error.kind])

end Reader

end WasmMeter
