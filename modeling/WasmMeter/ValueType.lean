/-! Value types: their byte form and their text. -/
namespace WasmMeter

/-- The type of a value: a number, a vector or a reference. -/
inductive ValueType where
  | i32
  | i64
  | f32
  | f64
  | v128
  | funcref
  | externref
deriving DecidableEq, Repr

namespace ValueType

def toByte : ValueType → UInt8
  | i32 => 0x7f
  | i64 => 0x7e
  | f32 => 0x7d
  | f64 => 0x7c
  | v128 => 0x7b
  | funcref => 0x70
  | externref => 0x6f

def ofByte? : UInt8 → Option ValueType
  | 0x7f => some i32
  | 0x7e => some i64
  | 0x7d => some f32
  | 0x7c => some f64
  | 0x7b => some v128
  | 0x70 => some funcref
  | 0x6f => some externref
  | _ => none

def name : ValueType → String
  | i32 => "i32"
  | i64 => "i64"
  | f32 => "f32"
  | f64 => "f64"
  | v128 => "v128"
  | funcref => "funcref"
  | externref => "externref"

/-- Every value type is read from the byte it is written as. -/
theorem ofByte?_toByte (t : ValueType) : ofByte? t.toByte = some t := by
  cases t <;> rfl

theorem toByte_of_ofByte? {b : UInt8} {t : ValueType} (h : ofByte? b = some t) : t.toByte = b := by
  unfold ofByte? at h
  split at h <;> cases h <;> rfl

/-- No value type is a byte below `0x40` or one with its top bit set. -/
theorem ofByte?_eq_none {b : UInt8} (h : b.toNat < 64 ∨ 128 ≤ b.toNat) : ofByte? b = none := by
  cases ht : ofByte? b with
  | none => rfl
  | some t =>
      rw [← toByte_of_ofByte? ht] at h
      cases t <;> revert h <;> decide

end ValueType

end WasmMeter
