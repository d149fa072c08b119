/-!
How function indices move when functions are inserted.
-/
namespace WasmMeter

/-- The new index of a function after `count` functions were inserted in front of the one at `point`.
An index that would leave its range stays at the end of the range. -/
def shift (index point count : UInt32) : UInt32 :=
  if point ≤ index then
    if index.toNat + count.toNat < UInt32.size then index + count else 0xffffffff
  else index

theorem shift_of_lt {index point : UInt32} (h : index < point) (count : UInt32) :
    shift index point count = index := by
  rw [shift, if_neg (UInt32.not_le.2 h)]

/-- An index that moves goes up by the count, as far as there are indices. -/
theorem toNat_shift_of_le {index point : UInt32} (h : point ≤ index) (count : UInt32) :
    (shift index point count).toNat = min (index.toNat + count.toNat) (UInt32.size - 1) := by
  have hsize : UInt32.size = 2 ^ 32 := rfl
  rw [shift, if_pos h, hsize]
  split
  · next hlt => rw [UInt32.toNat_add, Nat.mod_eq_of_lt hlt]; omega
  · next hge => rw [Nat.min_eq_right (by omega)]; rfl

/-- An index that moves to one below a limit goes up by one; the end of the range is out of reach,
because no limit is above it. -/
theorem toNat_shift_of_shift_lt {index point limit : UInt32} (h : point ≤ index)
    (hlt : shift index point 1 < limit) : (shift index point 1).toNat = index.toNat + 1 := by
  have hshift : (shift index point 1).toNat = min (index.toNat + 1) (2 ^ 32 - 1) :=
    toNat_shift_of_le h 1
  have hlimit := UInt32.toNat_lt limit
  have hbelow := UInt32.lt_iff_toNat_lt.1 hlt
  omega

/-- An index that moves to one below a limit stays what it is only in front of the insertion. -/
theorem shift_eq_self_iff {index point limit : UInt32} (hlt : shift index point 1 < limit) :
    shift index point 1 = index ↔ index < point := by
  constructor
  · intro heq
    refine UInt32.not_le.1 fun hle => ?_
    have hmoved := toNat_shift_of_shift_lt hle hlt
    rw [heq] at hmoved
    omega
  · exact fun hless => shift_of_lt hless 1

/-- An index that goes up by one at most stays below a limit that is greater by one. -/
theorem shift_lt {index limit : UInt32} (h : index.toNat + 1 < limit.toNat) (point : UInt32) :
    shift index point 1 < limit := by
  rw [UInt32.lt_iff_toNat_lt]
  by_cases hle : point ≤ index
  · rw [toNat_shift_of_le hle]
    exact Nat.lt_of_le_of_lt (Nat.min_le_left _ _) h
  · rw [shift_of_lt (UInt32.not_le.1 hle)]
    omega

theorem toNat_add_one {index : UInt32} (h : index.toNat + 1 < UInt32.size) :
    (index + 1).toNat = index.toNat + 1 := by
  rw [UInt32.toNat_add]
  exact Nat.mod_eq_of_lt h

/-- Two insertions, the second right behind the first, move an index as one insertion of both. -/
theorem shift_shift (index point count : UInt32) (hpoint : point.toNat + 1 < UInt32.size)
    (hcount : count.toNat + 1 < UInt32.size) :
    shift (shift index point 1) (point + 1) count = shift index point (count + 1) := by
  have hsize : UInt32.size = 2 ^ 32 := rfl
  have hnext := toNat_add_one hpoint
  have htotal := toNat_add_one hcount
  by_cases hle : point ≤ index
  · have hfirst : (shift index point 1).toNat = min (index.toNat + 1) (UInt32.size - 1) :=
      toNat_shift_of_le hle 1
    have hbelow := UInt32.le_iff_toNat_le.1 hle
    have hmoved : point + 1 ≤ shift index point 1 := by
      rw [UInt32.le_iff_toNat_le, hnext, hfirst]
      omega
    apply UInt32.toNat_inj.1
    rw [toNat_shift_of_le hmoved, hfirst, toNat_shift_of_le hle, htotal]
    omega
  · have hlt := UInt32.not_le.1 hle
    have hnat := UInt32.lt_iff_toNat_lt.1 hlt
    have hbehind : index < point + 1 := by
      rw [UInt32.lt_iff_toNat_lt, hnext]
      omega
    rw [shift_of_lt hlt, shift_of_lt hlt, shift_of_lt hbehind]

end WasmMeter
