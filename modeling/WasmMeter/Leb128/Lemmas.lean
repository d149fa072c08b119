import Mathlib.Algebra.Group.Int.Defs
import Mathlib.Algebra.Group.Nat.Defs
import WasmMeter.Bytes
import WasmMeter.Cursor.Lemmas
import WasmMeter.Leb128.Read

/-!
Reading back integers in seven-bit groups: the reader of a width takes exactly what was written for a
value of that width. The induction is on the groups that may still come, which bound the value.
-/
namespace WasmMeter

namespace Leb128

/-- A number of at most seven bits is a single group. -/
theorem ofNat_of_lt {n : Nat} (h : n < 128) : ofNat n = [n.toUInt8] := by
  rw [ofNat, if_pos h]

/-- A larger number is its lowest group, marked as continued, and the rest. -/
theorem ofNat_of_le {n : Nat} (h : 128 ≤ n) :
    ofNat n = (n % 128 + 128).toUInt8 :: ofNat (n / 128) := by
  rw [ofNat, if_neg (by omega)]

/-- A number that fits seven bits with its sign is a single group. -/
theorem ofInt_of_mem {i : Int} (h : -64 ≤ i ∧ i < 64) : ofInt i = [(i % 128).toNat.toUInt8] := by
  rw [ofInt, if_pos h]

/-- Any other number is its lowest group, marked as continued, and the rest, rounded down. -/
theorem ofInt_of_not_mem {i : Int} (h : ¬(-64 ≤ i ∧ i < 64)) :
    ofInt i = ((i % 128).toNat + 128).toUInt8 :: ofInt (i / 128) := by
  rw [ofInt, if_neg h]

theorem ofNat_ne_nil (n : Nat) : ofNat n ≠ [] := by
  rw [ofNat]; split <;> simp

theorem toNat_toUInt8_of_lt {n : Nat} (h : n < 256) : n.toUInt8.toNat = n := by
  simp; omega

/-- The first group of a natural number is the last one, with no sign, or says that another follows. -/
theorem exists_ofInt_natCast (n : Nat) :
    ∃ first rest, ofInt n = first :: rest ∧ (first.toNat < 64 ∨ 128 ≤ first.toNat) := by
  by_cases h : -64 ≤ (n : Int) ∧ (n : Int) < 64
  · refine ⟨_, [], ofInt_of_mem h, .inl ?_⟩
    rw [toNat_toUInt8_of_lt (by omega)]
    omega
  · refine ⟨_, _, ofInt_of_not_mem h, .inr ?_⟩
    rw [toNat_toUInt8_of_lt (by omega)]
    omega

/-- An integer of seven bits is what its only group says. -/
theorem signedGroup_ofInt {i : Int} (h : -64 ≤ i ∧ i < 64) :
    signedGroup (i % 128).toNat.toUInt8 = i := by
  rw [signedGroup, toNat_toUInt8_of_lt (by omega)]
  split <;> omega

end Leb128

namespace Reader

open Leb128

/-- A number of at most `7 * leading + last` bits is read back by that many leading groups and a
last one. -/
theorem reads_groups (start : Nat) {last : Nat} (hlast : last ≤ 7) {leading n : Nat}
    (h : n < 2 ^ (7 * leading + last)) : Reads (groups start last leading) (ofNat n) n := by
  induction leading generalizing n with
  | zero =>
      have hle : 2 ^ last ≤ 2 ^ 7 := Nat.pow_le_pow_right (by decide) hlast
      have hn : n < 2 ^ last := by simpa using h
      rw [ofNat_of_lt (by omega), ← List.append_nil [_]]
      refine (reads_byte _).bind ?_
      rw [toNat_toUInt8_of_lt (by omega), if_pos hn]
      exact reads_pure n
  | succ leading ih =>
      by_cases hn : n < 128
      · rw [ofNat_of_lt hn, ← List.append_nil [_]]
        refine (reads_byte _).bind ?_
        rw [toNat_toUInt8_of_lt (by omega), if_pos hn]
        exact reads_pure n
      · have hdiv : n / 128 < 2 ^ (7 * leading + last) := by
          apply Nat.div_lt_of_lt_mul
          rw [show 7 * (leading + 1) + last = 7 + (7 * leading + last) by omega, Nat.pow_add] at h
          exact h
        rw [ofNat_of_le (by omega), ← List.singleton_append]
        refine (reads_byte _).bind ?_
        rw [toNat_toUInt8_of_lt (by omega), if_neg (by omega)]
        have hsum : n = n % 128 + 128 - 128 + 128 * (n / 128) := by omega
        have := (ih hdiv).bind_pure fun rest => n % 128 + 128 - 128 + 128 * rest
        rwa [← hsum] at this

/-- The same with a sign, whose bit the last group must have room for. -/
theorem reads_signedGroups (start : Nat) {last : Nat} (hpos : 1 ≤ last) (hlast : last ≤ 7)
    {leading : Nat} {i : Int}
    (h : -2 ^ (7 * leading + last - 1) ≤ i ∧ i < 2 ^ (7 * leading + last - 1)) :
    Reads (signedGroups start last leading) (ofInt i) i := by
  induction leading generalizing i with
  | zero =>
      have hle : (2 : Int) ^ (last - 1) ≤ 2 ^ 6 := by
        exact_mod_cast Nat.pow_le_pow_right (n := 2) (by decide) (by omega : last - 1 ≤ 6)
      have hi : -2 ^ (last - 1) ≤ i ∧ i < 2 ^ (last - 1) := by simpa using h
      have hsmall : -64 ≤ i ∧ i < 64 := by omega
      rw [ofInt_of_mem hsmall, ← List.append_nil [_]]
      refine (reads_byte _).bind ?_
      simp only [signedGroup_ofInt hsmall]
      rw [toNat_toUInt8_of_lt (by omega), if_pos ⟨by omega, hi⟩]
      exact reads_pure i
  | succ leading ih =>
      by_cases hsmall : -64 ≤ i ∧ i < 64
      · rw [ofInt_of_mem hsmall, ← List.append_nil [_]]
        refine (reads_byte _).bind ?_
        rw [signedGroup_ofInt hsmall, toNat_toUInt8_of_lt (by omega), if_pos (by omega)]
        exact reads_pure i
      · have hdiv : -2 ^ (7 * leading + last - 1) ≤ i / 128 ∧
            i / 128 < 2 ^ (7 * leading + last - 1) := by
          rw [show 7 * (leading + 1) + last - 1 = 7 + (7 * leading + last - 1) by omega,
            Int.pow_add] at h
          omega
        rw [ofInt_of_not_mem hsmall, ← List.singleton_append]
        refine (reads_byte _).bind ?_
        rw [toNat_toUInt8_of_lt (by omega), if_neg (by omega)]
        have hsum : i = (((i % 128).toNat + 128 : Nat) - 128 : Int) + 128 * (i / 128) := by omega
        have := (ih hdiv).bind_pure fun rest =>
          (((i % 128).toNat + 128 : Nat) - 128 : Int) + 128 * rest
        rwa [← hsum] at this

theorem leading_lastBits {width : Nat} (h : 1 ≤ width) :
    7 * leading width + lastBits width = width ∧ 1 ≤ lastBits width ∧ lastBits width ≤ 7 := by
  unfold lastBits leading
  omega

/-- An unsigned number is read back at any width it fits. -/
theorem reads_unsigned (width : Nat) (hw : 1 ≤ width) {n : Nat} (h : n < 2 ^ width) :
    Reads (unsigned width) (ofNat n) n := by
  obtain ⟨hsum, _, hlast⟩ := leading_lastBits hw
  exact reads_position_bind fun start => reads_groups start hlast (by rwa [hsum])

/-- A signed number is read back at any width it fits. -/
theorem reads_signed (width : Nat) (hw : 1 ≤ width) {i : Int}
    (h : -2 ^ (width - 1) ≤ i ∧ i < 2 ^ (width - 1)) : Reads (signed width) (ofInt i) i := by
  obtain ⟨hsum, hpos, hlast⟩ := leading_lastBits hw
  exact reads_position_bind fun start => reads_signedGroups start hpos hlast (by rwa [hsum])

theorem reads_uint32 (n : UInt32) : Reads uint32 (Bytes.ofUInt32 n) n := by
  have := (reads_unsigned 32 (by decide) n.toNat_lt).bind_pure UInt32.ofNat
  rwa [UInt32.ofNat_toNat] at this

theorem reads_uint64 (n : UInt64) : Reads uint64 (Bytes.ofUInt64 n) n := by
  have := (reads_unsigned 64 (by decide) n.toNat_lt).bind_pure UInt64.ofNat
  rwa [UInt64.ofNat_toNat] at this

theorem reads_int32 (i : Int32) : Reads int32 (Bytes.ofInt32 i) i := by
  have := (reads_signed 32 (by decide) ⟨i.le_toInt, i.toInt_lt⟩).bind_pure Int32.ofInt
  rwa [Int32.ofInt_toInt] at this

theorem reads_int64 (i : Int64) : Reads int64 (Bytes.ofInt64 i) i := by
  have := (reads_signed 64 (by decide) ⟨i.le_toInt, i.toInt_lt⟩).bind_pure Int64.ofInt
  rwa [Int64.ofInt_toInt] at this

end Reader

end WasmMeter
