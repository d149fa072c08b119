import Mathlib.Algebra.GroupWithZero.Nat
import WasmMeter.Proofs.Reading.Shortest

/-!
What an answer is like, and what it costs. A property of answers may speak of the number of bytes
that were taken; it is carried along a sequence of readers, where the bytes add up. Integers and
sequences are never written in more bytes than they were read from, and a count is refused that is
greater than the number of bytes behind it.
-/
namespace WasmMeter

namespace Leb128

/-- A smaller number has no more groups. -/
theorem length_ofNat_le {m n : Nat} (h : m ≤ n) : (ofNat m).length ≤ (ofNat n).length := by
  induction m using Nat.strongRecOn generalizing n with
  | ind m ih =>
      by_cases hm : m < 128
      · have hpos := List.length_pos_iff.2 (ofNat_ne_nil n)
        rw [ofNat_of_lt hm, List.length_singleton]
        omega
      · have hrest := ih (m / 128) (by omega) (n := n / 128) (by omega)
        rw [ofNat_of_le (n := m) (by omega), ofNat_of_le (n := n) (by omega)]
        simpa using hrest

end Leb128

theorem Bytes.ofUInt32_ne_nil (n : UInt32) : ofUInt32 n ≠ [] := Leb128.ofNat_ne_nil _

theorem Bytes.length_ofUInt32_pos (n : UInt32) : 0 < (ofUInt32 n).length :=
  List.length_pos_iff.2 (ofUInt32_ne_nil n)

/-- Counted bytes have their length in front. -/
@[simp] theorem Bytes.length_counted (bytes : List UInt8) :
    (counted bytes).length = (ofLength bytes.length).length + bytes.length := by
  rw [counted, List.length_append]

/-- A smaller length is not written in more bytes. -/
theorem Bytes.length_ofLength_le {m : Nat} {n : UInt32} (h : m ≤ n.toNat) :
    (ofLength m).length ≤ (ofUInt32 n).length := by
  refine Leb128.length_ofNat_le ?_
  rwa [UInt32.toNat_ofNat_of_lt' (Nat.lt_of_le_of_lt h n.toNat_lt)]

namespace Reader

variable {α β : Type} {r : Reader α} {P Q : α → Nat → Prop}

/-- Every answer has the property, together with the number of bytes that it took. -/
def Yields (r : Reader α) (P : α → Nat → Prop) : Prop :=
  ∀ c a d, r c = .ok a d → ∃ n, c.remaining = d.remaining + n ∧ P a n

/-- A weaker property holds of every answer as well. -/
theorem Yields.mono (h : Yields r P) (hmono : ∀ a n, P a n → Q a n) : Yields r Q := by
  intro c a d hr
  obtain ⟨n, hn, hp⟩ := h c a d hr
  exact ⟨n, hn, hmono a n hp⟩

/-- The bytes that were taken are the same for both properties. -/
theorem Yields.and (hp : Yields r P) (hq : Yields r Q) : Yields r fun a n => P a n ∧ Q a n := by
  intro c a d hr
  obtain ⟨n, hn, hpa⟩ := hp c a d hr
  obtain ⟨m, hm, hqa⟩ := hq c a d hr
  obtain rfl : n = m := by omega
  exact ⟨n, hn, hpa, hqa⟩

theorem yields_pure {a : α} (h : P a 0) : Yields (pure a) P := by
  intro c b d hr
  obtain ⟨rfl, rfl⟩ := pure_eq_ok_iff.1 hr
  exact ⟨0, rfl, h⟩

theorem yields_throw (error : Error) : Yields (throw error : Reader α) P :=
  fun _ _ _ h => absurd h throw_ne_ok

/-- What is taken by two readers in a row adds up. -/
theorem Yields.bind {f : α → Reader β} {R : β → Nat → Prop} (hr : Yields r P)
    (hf : ∀ a n, P a n → Yields (f a) fun b m => R b (n + m)) : Yields (r >>= f) R := by
  intro c b e h
  obtain ⟨a, d, ha, hb⟩ := bind_eq_ok_iff.1 h
  obtain ⟨n, hn, hp⟩ := hr c a d ha
  obtain ⟨m, hm, hb⟩ := hf a n hp d b e hb
  exact ⟨n + m, by omega, hb⟩

/-- Looking at the offset takes no bytes. -/
theorem yields_position_bind {f : Nat → Reader α} (h : ∀ start, Yields (f start) P) :
    Yields (position >>= f) P :=
  fun c a d hr => h c.position c a d hr

/-- What is made of an answer took the bytes of the answer. -/
theorem Yields.map {f : α → β} {R : β → Nat → Prop} (hr : Yields r P)
    (hf : ∀ a n, P a n → R (f a) n) : Yields (f <$> r) R := by
  intro c b d h
  obtain ⟨a, ha, rfl⟩ := map_eq_ok_iff.1 h
  obtain ⟨n, hn, hp⟩ := hr c a d ha
  exact ⟨n, hn, hf a n hp⟩

/-- The bytes that were taken are those in front of what is left. -/
theorem yields_of_source
    (h : ∀ {c a d}, r c = .ok a d → ∃ source, c.unread = source ++ d.unread ∧ P a source.length) :
    Yields r P := by
  intro c a d hr
  obtain ⟨source, hu, hp⟩ := h hr
  refine ⟨source.length, ?_, hp⟩
  simp only [Cursor.remaining, hu, List.length_append]
  omega

theorem SelfDelimiting.yields (h : SelfDelimiting r) : Yields r fun _ _ => True :=
  yields_of_source fun hr => (h.advances hr).imp fun _ hsource => ⟨hsource.1, trivial⟩

theorem yields_byte : Yields byte fun _ n => n = 1 := by
  intro c b d h
  refine ⟨1, ?_, rfl⟩
  simp [Cursor.remaining, (byte_eq_ok_iff.1 h).1]

/-- As many bytes are taken as there are in the answer. -/
theorem yields_take (length : Nat) :
    Yields (take length) fun bytes n => bytes.length = length ∧ n = length := by
  refine yields_of_source fun {c bytes d} h => ?_
  obtain ⟨hlength, hu, -⟩ := take_eq_ok_iff.1 h
  exact ⟨bytes, hu, hlength, hlength⟩

/-- All bytes that were left are in the answer. -/
theorem yields_takeRest : Yields takeRest fun bytes n => bytes.length = n := by
  intro c bytes d h
  cases h
  exact ⟨_, by simp [Cursor.remaining], rfl⟩

/-! ### Integers -/

/-- No integer is written in more bytes than it was read from. -/
theorem WrittenShortest.yields {width : Nat} {bytes : α → List UInt8}
    (h : WrittenShortest width bytes r) : Yields r fun a n => (bytes a).length ≤ n :=
  yields_of_source fun hr =>
    (h.shortens hr).imp fun _ hsource => ⟨hsource.1, hsource.2.length_le⟩

/-- A number may have been padded, and is written without padding. -/
theorem yields_uint32 : Yields uint32 fun value n => (Bytes.ofUInt32 value).length ≤ n :=
  writtenShortest_uint32.yields

theorem yields_uint64 : Yields uint64 fun value n => (Bytes.ofUInt64 value).length ≤ n :=
  writtenShortest_uint64.yields

theorem yields_int32 : Yields int32 fun value n => (Bytes.ofInt32 value).length ≤ n :=
  writtenShortest_int32.yields

theorem yields_int64 : Yields int64 fun value n => (Bytes.ofInt64 value).length ≤ n :=
  writtenShortest_int64.yields

/-- An integer of a width is in its range. -/
theorem yields_signed {width : Nat} (hw : 1 ≤ width) :
    Yields (signed width) fun i n =>
      (-2 ^ (width - 1) ≤ i ∧ i < 2 ^ (width - 1)) ∧ (Leb128.ofInt i).length ≤ n := by
  refine yields_of_source fun {c i d} hr => ?_
  obtain ⟨source, hsource, -, ⟨hrange, rfl⟩, hu, -⟩ := (decodes_signed hw c).answer.1 hr
  exact ⟨source, hu, hrange, hsource.shortens_ofInt.length_le⟩

theorem yields_word (width : Nat) : Yields (word width) fun _ n => n = width :=
  (yields_take width).bind fun _ _ h => yields_pure h.2

/-! ### Sequences -/

variable {item : Reader α} {size : α → Nat} {bytes : α → List UInt8} {P : α → Prop}

/-- The sizes of the items add up, if none is greater than the number of bytes it was read from. -/
theorem yields_times (h : Yields item fun a n => P a ∧ size a ≤ n) (count : Nat) :
    Yields (times count item) fun items n =>
      items.length = count ∧ (∀ a ∈ items, P a) ∧ (items.map size).sum ≤ n := by
  induction count with
  | zero => exact yields_pure (by simp)
  | succ count ih =>
      rw [times_succ]
      refine h.bind fun a n ha => ih.bind fun items m hitems => yields_pure ?_
      obtain ⟨hp, hn⟩ := ha
      obtain ⟨hlength, hall, hm⟩ := hitems
      refine ⟨by simp [hlength], List.forall_mem_cons.2 ⟨hp, hall⟩, ?_⟩
      simp only [List.map_cons, List.sum_cons]
      omega

/-- A sequence is not written in more bytes than it was read from if its items are not. -/
theorem yields_vector (h : Yields item fun a n => P a ∧ (bytes a).length ≤ n) :
    Yields (vector item) fun items n =>
      (∀ a ∈ items, P a) ∧ (Bytes.vector bytes items).length ≤ n := by
  refine yields_uint32.bind fun count n hn => (yields_times h count.toNat).mono ?_
  rintro items m ⟨hlength, hall, hm⟩
  refine ⟨hall, ?_⟩
  rw [Bytes.vector, List.length_append, hlength, Bytes.ofLength_toNat, List.length_flatMap]
  omega

/-- Items of which nothing more is asked. -/
theorem Yields.plain (h : Yields item fun a n => size a ≤ n) :
    Yields item fun a n => True ∧ size a ≤ n :=
  h.mono fun _ _ hn => ⟨trivial, hn⟩

/-- A sequence is written in no more bytes than it was read from, if that holds of its items. -/
theorem yields_plain (h : Yields item fun a n => (bytes a).length ≤ n) :
    Yields (vector item) fun items n => (Bytes.vector bytes items).length ≤ n :=
  (yields_vector h.plain).mono fun _ _ hn => hn.2

/-- The length of a sequence is a 32-bit integer. -/
theorem yields_length_vector (h : SelfDelimiting item) :
    Yields (vector item) fun items _ => items.length < 2 ^ 32 := by
  have hitem : Yields item fun _ n => 0 ≤ n := h.yields.mono fun _ n _ => Nat.zero_le n
  refine yields_uint32.bind fun count n _ => (yields_times hitem.plain count.toNat).mono ?_
  rintro items m ⟨hlength, -⟩
  rw [hlength]
  exact count.toNat_lt

theorem yields_bytes : Yields Reader.bytes fun bytes n => (Bytes.counted bytes).length ≤ n := by
  refine yields_uint32.bind fun count n hn => (yields_take count.toNat).mono ?_
  rintro bytes m ⟨hlength, hm⟩
  rw [Bytes.length_counted, hlength, Bytes.ofLength_toNat]
  omega

/-! ### Counts -/

/-- What is known of the number of bytes may tell that there was one. -/
theorem Yields.progresses {P : α → Nat → Prop} (h : Yields r P) (hpos : ∀ {a n}, P a n → 0 < n) :
    Progresses r := by
  intro c a d hr
  obtain ⟨n, hn, hp⟩ := h c a d hr
  have := hpos hp
  omega

theorem Progresses.yields (h : Progresses r) : Yields r fun _ n => 0 < n := by
  intro c a d hr
  have hlt := h c a d hr
  exact ⟨c.remaining - d.remaining, by omega, by omega⟩

/-- What keeps the count of a sequence within the input. An item takes at least one byte; a count that is
greater than the number of bytes behind it is refused; an answer has as many items as the count says,
and fewer than the bytes that were taken. -/
structure Counted (item : Reader α) : Prop where
  progresses : Progresses item
  refuses : ∀ {c count d}, uint32 c = .ok count d → d.remaining < count.toNat →
    ∃ error e, vector item c = .error error e
  length_eq : ∀ {c count d items e}, uint32 c = .ok count d → vector item c = .ok items e →
    items.length = count.toNat
  length_lt : ∀ {c items d}, vector item c = .ok items d →
    items.length + d.remaining < c.remaining

/-- Items that each take a byte take as many bytes as they are. -/
theorem Progresses.yields_times (h : Progresses item) (count : Nat) :
    Yields (times count item) fun items n => items.length = count ∧ count ≤ n := by
  have hitem : Yields item fun _ n => 1 ≤ n := h.yields
  refine (Reader.yields_times hitem.plain count).mono ?_
  rintro items n ⟨rfl, -, hn⟩
  rw [List.map_const', List.sum_replicate_nat, Nat.mul_one] at hn
  exact ⟨rfl, hn⟩

theorem progresses_uint32 : Progresses uint32 :=
  yields_uint32.progresses fun hn => Nat.lt_of_lt_of_le (Bytes.length_ofUInt32_pos _) hn

/-- Items that take a byte each are no more than the bytes that they are read from, so a count beyond
these cannot be met. -/
theorem Progresses.counted (h : Progresses item) : Counted item where
  progresses := h
  refuses {c count d} hcount hless := by
    rw [vector, bind_of_ok hcount]
    cases hitems : times count.toNat item d with
    | error error e => exact ⟨error, e, rfl⟩
    | ok items e =>
        obtain ⟨n, hn, -, hle⟩ := h.yields_times count.toNat d items e hitems
        omega
  length_eq {c count d items e} hcount hvector := by
    rw [vector, bind_of_ok hcount] at hvector
    obtain ⟨n, -, hlength, -⟩ := h.yields_times count.toNat d items e hvector
    exact hlength
  length_lt {c items e} hvector := by
    obtain ⟨count, d, hcount, hitems⟩ := bind_eq_ok_iff.1 hvector
    obtain ⟨n, hn, hlength, hle⟩ := h.yields_times count.toNat d items e hitems
    have hlt := progresses_uint32 c count d hcount
    omega

/-- Three items are announced, and two bytes follow. -/
example : (vector uint32).answer (.ofBytes [0x03, 0x00, 0x00]) = .error (.unexpectedEnd 3 1) := rfl

end Reader

end WasmMeter
