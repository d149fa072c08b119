import WasmMeter.Proofs.Module.RoundTrip
import WasmMeter.Proofs.Reading.Groups

/-!
Where errors are. The offset of an error is one of the input, or its end, and what stands there is what
the error says of it. A reader locates its errors if this holds of every error that it raises on a
part of the input, however deep the cursor is; like the other properties of readers this one is
carried along each way of putting readers together. A property of the answers goes along with it,
because an error may speak of a place that was reached before.
-/
namespace WasmMeter

open Reader

/-- An integer that begins with these bytes does not fit the width that one of the readers expects. -/
def Reader.FailsAsInteger (bytes : List UInt8) (position : Nat) : Prop :=
  (∃ width ∈ [32, 64], ∃ d,
    unsigned width ⟨bytes, position⟩ = .error (.invalidLeb128 position) d) ∨
  ∃ width ∈ [32, 33, 64], ∃ d,
    signed width ⟨bytes, position⟩ = .error (.invalidLeb128 position) d

/-- The bytes that begin at the offset of the error are those that it speaks of. -/
def Error.Describes (bytes : List UInt8) : Error → Prop
  | .invalidLeb128 position => bytes ≠ [] ∧ FailsAsInteger bytes position
  | .unknownOpcode byte _ _ => bytes.head? = some byte
  | .invalidImmediate _ _ => bytes ≠ []
  | .unmatchedBlockEnd _ => bytes.head? = some 0x05 ∨ bytes.head? = some 0x0b
  | .trailingCode _ => ∃ b, bytes.head? = some b ∧ b ≠ 0x05 ∧ b ≠ 0x0b
  | _ => True

/-- A place of the input, or its end, that is not in front of `base`. -/
def IsPlace (input : List UInt8) (base n : Nat) : Prop := base ≤ n ∧ n ≤ input.length

/-- The offset of the error, if it has one, is such a place, with the bytes there that the error speaks
of. -/
def Error.LocatedIn (input : List UInt8) (base : Nat) (e : Error) : Prop :=
  ∀ n, e.offset? = some n → IsPlace input base n ∧ e.Describes (input.drop n)

/-- An error has one offset at most. -/
theorem Error.locatedIn_of_offset {input : List UInt8} {base n : Nat} {e : Error}
    (hn : e.offset? = some n) (hplace : IsPlace input base n)
    (hdescribes : e.Describes (input.drop n)) : e.LocatedIn input base := by
  intro k hk
  cases hn.symm.trans hk
  exact ⟨hplace, hdescribes⟩

/-- What is left to read stands in the input at the offset of the cursor, and not in front of `base`. -/
structure Cursor.LiesFrom (input : List UInt8) (base : Nat) (c : Cursor) : Prop where
  liesIn : c.LiesIn input
  base_le : base ≤ c.position

namespace Cursor.LiesFrom

variable {input : List UInt8} {base : Nat} {c d : Cursor}

/-- A cursor on a part of the input stands at a place of it. -/
theorem isPlace (h : c.LiesFrom input base) : IsPlace input base c.position :=
  ⟨h.base_le, Nat.le_of_add_right_le h.liesIn.extract_eq.1⟩

/-- So does the end of what is left to read. -/
theorem isPlace_end (h : c.LiesFrom input base) :
    IsPlace input base (c.position + c.remaining) :=
  ⟨Nat.le_add_right_of_le h.base_le, h.liesIn.extract_eq.1⟩

/-- From the place of the cursor on, the input begins with what is unread. -/
theorem exists_drop_eq (h : c.LiesFrom input base) :
    ∃ rest, input.drop c.position = c.unread ++ rest := by
  obtain ⟨front, rest, rfl, hfront⟩ := h.liesIn
  exact ⟨rest, by rw [← hfront, List.drop_left]⟩

/-- What is left of a part of the input is a part of it. -/
theorem advance (h : c.LiesFrom input base) {bytes : List UInt8} (hu : c.unread = bytes ++ d.unread)
    (hd : d.position = c.position + bytes.length) : d.LiesFrom input base :=
  ⟨h.liesIn.advance hu hd, hd ▸ Nat.le_add_right_of_le h.base_le⟩

/-- Any first part of what is left is a part of the input. -/
theorem window (h : c.LiesFrom input base) {w : Cursor} {rest : List UInt8}
    (hu : c.unread = w.unread ++ rest) (hw : w.position = c.position) : w.LiesFrom input base :=
  ⟨h.liesIn.window hu hw, hw ▸ h.base_le⟩

end Cursor.LiesFrom

/-- A reader that knows its end stops within the part that it began in. -/
theorem Reader.SelfDelimiting.liesFrom {α : Type} {r : Reader α} (h : SelfDelimiting r)
    {input : List UInt8} {base : Nat} {c d : Cursor} (hc : c.LiesFrom input base) {a : α}
    (hr : r c = .ok a d) : d.LiesFrom input base := by
  obtain ⟨bytes, hu, hd⟩ := h.advances hr
  exact hc.advance hu hd

namespace Reader

variable {α β σ : Type} {input : List UInt8} {base : Nat}

/-- On a part of the input, answers have the property and leave a part of the input, and errors are
located. -/
structure Locates (input : List UInt8) (base : Nat) (r : Reader α) (P : α → Prop) : Prop where
  answer : ∀ {c a d}, c.LiesFrom input base → r c = .ok a d → d.LiesFrom input base ∧ P a
  failure : ∀ {c e d}, c.LiesFrom input base → r c = .error e d → e.LocatedIn input base

variable {r : Reader α} {P : α → Prop} {Q : β → Prop}

/-! ### Combinations -/

/-- Less may be said of the answers. -/
theorem Locates.mono {P' : α → Prop} (h : Locates input base r P) (hmono : ∀ a, P a → P' a) :
    Locates input base r P' :=
  ⟨fun hc hr => (h.answer hc hr).imp_right (hmono _), h.failure⟩

theorem locates_pure {a : α} (h : P a) : Locates input base (pure a) P := by
  refine ⟨fun hc hr => ?_, fun _ hr => absurd hr pure_ne_error⟩
  obtain ⟨rfl, rfl⟩ := pure_eq_ok_iff.1 hr
  exact ⟨hc, h⟩

/-- An error that is raised has to be located by itself. -/
theorem locates_throw {e : Error} (h : e.LocatedIn input base) : Locates input base (throw e) P := by
  refine ⟨fun _ hr => absurd hr throw_ne_ok, fun _ hr => ?_⟩
  obtain ⟨rfl, -⟩ := throw_eq_error_iff.1 hr
  exact h

/-- The second part reads where the first one stopped, which is a place of the input again. -/
theorem Locates.bind {f : α → Reader β} (hr : Locates input base r P)
    (hf : ∀ a, P a → Locates input base (f a) Q) : Locates input base (r >>= f) Q := by
  refine ⟨fun hc h => ?_, fun hc h => ?_⟩
  · obtain ⟨a, middle, ha, h⟩ := bind_eq_ok_iff.1 h
    obtain ⟨hmiddle, hp⟩ := hr.answer hc ha
    exact (hf a hp).answer hmiddle h
  · rcases bind_eq_error_iff.1 h with h | ⟨a, middle, ha, h⟩
    · exact hr.failure hc h
    · obtain ⟨hmiddle, hp⟩ := hr.answer hc ha
      exact (hf a hp).failure hmiddle h

/-- What is made of an answer is read from the same place. -/
theorem Locates.map {f : α → β} (hr : Locates input base r P) (hf : ∀ a, P a → Q (f a)) :
    Locates input base (f <$> r) Q := by
  rw [← bind_pure_comp]
  exact hr.bind fun a ha => locates_pure (hf a ha)

theorem Locates.ite {condition : Prop} [Decidable condition] {other : Reader α}
    (hr : Locates input base r P) (hother : Locates input base other P) :
    Locates input base (if condition then r else other) P := by
  split
  · exact hr
  · exact hother

/-- Errors may be replaced by others that are located as well. -/
theorem Locates.adaptExcept {f : Error → Error} (hr : Locates input base r P)
    (hf : ∀ e : Error, e.LocatedIn input base → (f e).LocatedIn input base) :
    Locates input base (r.adaptExcept f) P := by
  refine ⟨fun hc h => hr.answer hc (adaptExcept_eq_ok_iff.1 h), fun hc h => ?_⟩
  obtain ⟨cause, hcause, rfl⟩ := adaptExcept_eq_error_iff.1 h
  exact hf cause (hr.failure hc hcause)

/-- The end of the input is at a place, whatever it is called. -/
theorem Locates.mapEnd {cause : Nat → Error} (hr : Locates input base r P)
    (hcause : ∀ position, IsPlace input base position → (cause position).LocatedIn input base) :
    Locates input base (mapEnd cause r) P := by
  refine hr.adaptExcept fun e he => ?_
  cases e with
  | unexpectedEnd position wanted => exact hcause position (he position rfl).1
  | _ => exact he

/-- To keep the source raises nothing. -/
theorem Locates.withSource (hr : Locates input base r P) :
    Locates input base (withSource r) fun answer => P answer.1 :=
  ⟨fun hc h => hr.answer hc (withSource_eq_ok_iff.1 h).1,
    fun hc h => hr.failure hc (withSource_eq_error_iff.1 h)⟩

/-- A reader locates its errors if at every place it does what a reader does that locates them. -/
theorem locates_of_eq (h : ∀ c : Cursor, c.LiesFrom input base → ∃ other : Reader α, r c = other c ∧
    Locates input base other P) : Locates input base r P := by
  refine ⟨fun {c _ _} hc hr => ?_, fun {c _ _} hc hr => ?_⟩
  · obtain ⟨other, heq, hother⟩ := h c hc
    exact hother.answer hc (heq ▸ hr)
  · obtain ⟨other, heq, hother⟩ := h c hc
    exact hother.failure hc (heq ▸ hr)

/-- A part of the input may be read by itself. -/
theorem Locates.within {w : Cursor} (hr : Locates input base r P) (hw : w.LiesFrom input base) :
    Locates input base (within w r) fun answer => P answer.1 ∧ answer.2.LiesFrom input base := by
  refine ⟨fun hc h => ?_, fun _ h => ?_⟩
  · obtain ⟨hinside, rfl⟩ := within_eq_ok_iff.1 h
    exact ⟨hc, (hr.answer hw hinside).symm⟩
  · obtain ⟨⟨_, hinside⟩, -⟩ := within_eq_error_iff.1 h
    exact hr.failure hw hinside

/-- Every item begins where the one in front ended. -/
theorem Locates.times (hr : Locates input base r fun _ => True) (n : Nat) :
    Locates input base (times n r) fun _ => True := by
  induction n with
  | zero => exact locates_pure trivial
  | succ n ih =>
      rw [times_succ]
      exact hr.bind fun _ _ => ih.bind fun _ _ => locates_pure trivial

/-- A loop locates its errors if its step does, and what it does at the end. -/
theorem Locates.whileUnread {step : σ → Reader (σ ⊕ α)} {atEnd : σ → Reader α}
    (hstep : ∀ s, Locates input base (step s) fun _ => True)
    (hend : ∀ s, Locates input base (atEnd s) fun _ => True) (s : σ) :
    Locates input base (whileUnread step atEnd s) fun _ => True := by
  have hgo (bound : List UInt8) :
      ∀ s, Locates input base (whileUnread.go step atEnd bound s) fun _ => True := by
    induction bound with
    | nil => exact hend
    | cons x bound ih =>
        intro s
        have hempty : Locates input base isAtEnd fun _ => True := by
          refine ⟨fun hc h => ?_, fun _ h => ?_⟩
          · cases h
            exact ⟨hc, trivial⟩
          · cases h
        refine hempty.bind fun isAtEnd _ => (hend s).ite ((hstep s).bind fun answer _ => ?_)
        cases answer with
        | inl next => exact ih next
        | inr a => exact locates_pure trivial
  exact locates_of_eq fun c _ => ⟨whileUnread.go step atEnd c.unread s, rfl, hgo c.unread s⟩

/-! ### Places and bytes -/

/-- The input may end in the middle of anything. -/
theorem locatedIn_unexpectedEnd {position wanted : Nat} (h : IsPlace input base position) :
    (Error.unexpectedEnd position wanted).LocatedIn input base :=
  Error.locatedIn_of_offset rfl h trivial

/-- A flaw of a section may be anywhere from the base on. -/
theorem locatedIn_malformed {kind : SectionKind} {flaw : SectionFlaw} {position : Nat}
    (h : IsPlace input base position) : (kind.malformed flaw position).LocatedIn input base :=
  Error.locatedIn_of_offset rfl h trivial

/-- The offset that is looked at is a place of the input. -/
theorem locates_position : Locates input base position (IsPlace input base) := by
  refine ⟨fun hc h => ?_, fun _ h => ?_⟩
  · cases h
    exact ⟨hc, hc.isPlace⟩
  · cases h

/-- What an answer says of the bytes it was read from, whatever stands behind them. -/
def Tells (r : Reader α) (R : List UInt8 → α → Prop) : Prop :=
  ∀ c a d, r c = .ok a d → ∀ rest, R (c.unread ++ rest) a

/-- What goes on from an answer may speak of the place where it was read, and of the bytes there. -/
theorem Locates.position_bind {R : List UInt8 → α → Prop} {f : Nat → α → Reader β}
    (hr : Locates input base r P) (htells : Tells r R)
    (hf : ∀ start a, IsPlace input base start → R (input.drop start) a → P a →
      Locates input base (f start a) Q) :
    Locates input base (position >>= fun start => r >>= f start) Q := by
  have hfrom {c d : Cursor} {a : α} (hc : c.LiesFrom input base) (ha : r c = .ok a d) :
      d.LiesFrom input base ∧ Locates input base (f c.position a) Q := by
    obtain ⟨hd, hp⟩ := hr.answer hc ha
    obtain ⟨rest, hdrop⟩ := hc.exists_drop_eq
    have hstart : R (input.drop c.position) a := by
      rw [hdrop]
      exact htells c a d ha rest
    exact ⟨hd, hf _ _ hc.isPlace hstart hp⟩
  refine ⟨fun hc h => ?_, fun hc h => ?_⟩
  · rw [Reader.position_bind] at h
    obtain ⟨a, d, ha, h⟩ := bind_eq_ok_iff.1 h
    obtain ⟨hd, hnext⟩ := hfrom hc ha
    exact hnext.answer hd h
  · rw [Reader.position_bind] at h
    rcases bind_eq_error_iff.1 h with h | ⟨a, d, ha, h⟩
    · exact hr.failure hc h
    · obtain ⟨hd, hnext⟩ := hfrom hc ha
      exact hnext.failure hd h

theorem tells_byte : Tells byte fun bytes b => bytes.head? = some b := by
  intro c b d h rest
  rw [(byte_eq_ok_iff.1 h).1]
  rfl

theorem locates_byte : Locates input base byte fun _ => True := by
  refine ⟨fun hc hr => ?_, fun hc hr => ?_⟩
  · exact ⟨selfDelimiting_byte.liesFrom hc hr, trivial⟩
  · obtain ⟨-, rfl, -⟩ := byte_eq_error_iff.1 hr
    exact locatedIn_unexpectedEnd hc.isPlace

/-- Bytes that were taken are in the input, so it is as long as they are. -/
theorem locates_take (n : Nat) : Locates input base (take n) fun _ => n ≤ input.length := by
  refine ⟨fun hc hr => ?_, fun hc hr => ?_⟩
  · have hd := (selfDelimiting_take n).liesFrom hc hr
    have hle := hd.isPlace.2
    rw [(take_eq_ok_iff.1 hr).2.2] at hle
    exact ⟨hd, by omega⟩
  · obtain ⟨-, rfl, -⟩ := take_eq_error_iff.1 hr
    exact locatedIn_unexpectedEnd hc.isPlace

/-- Taking all that is left never fails. -/
theorem locates_takeRest : Locates input base takeRest fun _ => True := by
  refine ⟨fun {c _ _} hc hr => ?_, fun _ hr => ?_⟩
  · cases hr
    have hu : c.unread = c.unread ++ [] := (List.append_nil _).symm
    exact ⟨hc.advance hu rfl, trivial⟩
  · cases hr

/-- A window is a part of the input, and may be read like one. -/
theorem locates_window (n : Nat) : Locates input base (window n) fun w => w.LiesFrom input base := by
  refine ⟨fun {c w d} hc hr => ?_, fun hc hr => ?_⟩
  · obtain ⟨hw, hlength, hu, hd⟩ := window_eq_ok_iff.1 hr
    exact ⟨hc.advance hu (by rw [hd, hlength]), hc.window hu hw⟩
  · obtain ⟨-, rfl, -⟩ := window_eq_error_iff.1 hr
    exact locatedIn_unexpectedEnd hc.isPlace

/-! ### Integers -/

/-- An error of the reader is that the input ends, or that the number does not fit, and then what
stands behind makes no difference. -/
def FailsFrom (start : Nat) (r : Reader α) : Prop :=
  ∀ {c e d}, r c = .error e d → e = .unexpectedEnd (c.position + c.remaining) 1 ∨
    e = .invalidLeb128 start ∧ ∀ rest, ∃ d', r ⟨c.unread ++ rest, c.position⟩ = .error e d'

/-- What is known of an integer at every cursor says how it fails: at the end of the input, where there
would have to be more, or for what it is. -/
theorem failsFrom_of_decodesAt {start most : Nat} {denotes : List UInt8 → α → Prop}
    (h : ∀ c, DecodesAt start most denotes r c) : FailsFrom start r := by
  intro c e d hr
  by_cases hcut : c.remaining < most ∧ c.unread.all Leb128.goesOn = true
  · exact .inl (by rw [(h c).failure hr, if_pos hcut])
  · have he : e = .invalidLeb128 start := by rw [(h c).failure hr, if_neg hcut]
    refine .inr ⟨he, fun rest => ?_⟩
    cases hlonger : r ⟨c.unread ++ rest, c.position⟩ with
    | ok a d' =>
        obtain ⟨_, hagain⟩ := (h _).ok_of_append (h c) hcut hlonger
        cases hr.symm.trans hagain
    | error e' d' =>
        have hcut' : ¬((c.unread ++ rest).length < most ∧
            (c.unread ++ rest).all Leb128.goesOn = true) := by
          rintro ⟨hshort, hgoing⟩
          rw [List.all_append, Bool.and_eq_true] at hgoing
          rw [List.length_append] at hshort
          exact hcut ⟨Nat.lt_of_le_of_lt (Nat.le_add_right _ _) hshort, hgoing.1⟩
        have he' : e' = .invalidLeb128 start := ((h _).failure hlonger).trans (if_neg hcut')
        exact ⟨d', by rw [he, he']⟩

theorem failsFrom_groups {width : Nat} (hw : 1 ≤ width) (start : Nat) :
    FailsFrom start (groups start (Leb128.lastBits width) (Leb128.leading width)) :=
  failsFrom_of_decodesAt ((isLoop_groups start (leading_lastBits hw).2.2).decodesAt _)

theorem failsFrom_signedGroups {width : Nat} (hw : 1 ≤ width) (start : Nat) :
    FailsFrom start (signedGroups start (Leb128.lastBits width) (Leb128.leading width)) :=
  failsFrom_of_decodesAt ((isLoop_signedGroups start (leading_lastBits hw).2.1).decodesAt _)

/-- Nothing is no integer that does not fit. -/
theorem FailsAsInteger.ne_nil {bytes : List UInt8} {position : Nat}
    (h : FailsAsInteger bytes position) : bytes ≠ [] := by
  rintro rfl
  rcases h with ⟨width, hwidth, d, h⟩ | ⟨width, hwidth, d, h⟩
  · simp only [List.mem_cons, List.not_mem_nil, or_false] at hwidth
    rcases hwidth with rfl | rfl <;> cases h
  · simp only [List.mem_cons, List.not_mem_nil, or_false] at hwidth
    rcases hwidth with rfl | rfl | rfl <;> cases h

/-- An integer that does not fit is found where it begins. -/
theorem locates_integer {r : Nat → Reader α} (hs : SelfDelimiting (position >>= r))
    (hf : ∀ start, FailsFrom start (r start))
    (hwidth : ∀ {bytes start d}, r start ⟨bytes, start⟩ = .error (.invalidLeb128 start) d →
      FailsAsInteger bytes start) :
    Locates input base (position >>= r) fun _ => True := by
  refine ⟨fun hc h => ⟨hs.liesFrom hc h, trivial⟩, fun {c e d} hc h => ?_⟩
  obtain ⟨rest, hdrop⟩ := hc.exists_drop_eq
  rcases hf c.position h with rfl | ⟨rfl, hlonger⟩
  · exact locatedIn_unexpectedEnd hc.isPlace_end
  · obtain ⟨d', hd⟩ := hlonger rest
    rw [← hdrop] at hd
    have hfails := hwidth hd
    exact Error.locatedIn_of_offset rfl hc.isPlace ⟨hfails.ne_nil, hfails⟩

/-- An integer that does not fit begins at the place that the error names, and its bytes are there. -/
theorem locates_unsigned {width : Nat} (hwidth : width ∈ [32, 64]) :
    Locates input base (unsigned width) fun _ => True := by
  have hw : 1 ≤ width := by simp at hwidth; omega
  exact locates_integer (selfDelimiting_unsigned width) (failsFrom_groups hw)
    fun h => .inl ⟨width, hwidth, _, h⟩

/-- The same with a sign. -/
theorem locates_signed {width : Nat} (hwidth : width ∈ [32, 33, 64]) :
    Locates input base (signed width) fun _ => True := by
  have hw : 1 ≤ width := by simp at hwidth; omega
  exact locates_integer (selfDelimiting_signed width) (failsFrom_signedGroups hw)
    fun h => .inr ⟨width, hwidth, _, h⟩

/-- An answer of which nothing is asked may be made into another. -/
theorem Locates.bind_pure (hr : Locates input base r P) (f : α → β) :
    Locates input base (r >>= fun a => pure (f a)) fun _ => True :=
  hr.bind fun _ _ => locates_pure trivial

theorem locates_uint32 : Locates input base uint32 fun _ => True :=
  (locates_unsigned (by decide)).bind_pure _

theorem locates_uint64 : Locates input base uint64 fun _ => True :=
  (locates_unsigned (by decide)).bind_pure _

theorem locates_int32 : Locates input base int32 fun _ => True :=
  (locates_signed (by decide)).bind_pure _

theorem locates_int64 : Locates input base int64 fun _ => True :=
  (locates_signed (by decide)).bind_pure _

/-! ### Words and sequences -/

theorem locates_word (width : Nat) : Locates input base (word width) fun _ => True :=
  (locates_take width).bind_pure _

theorem locates_bytes : Locates input base Reader.bytes fun _ => True :=
  locates_uint32.bind fun _ _ => (locates_take _).mono fun _ _ => trivial

/-- The number of items and every item is read at a place of the input. -/
theorem Locates.vector (hr : Locates input base r P) : Locates input base (vector r) fun _ => True :=
  locates_uint32.bind fun n _ => (hr.mono fun _ _ => trivial).times n.toNat

end Reader

end WasmMeter
