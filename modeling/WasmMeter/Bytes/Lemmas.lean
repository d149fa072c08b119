import Mathlib.Algebra.Group.Nat.Defs
import WasmMeter.Bytes.Read
import WasmMeter.Leb128.Lemmas

/-!
Reading back fixed-width words and sequences behind their length. A length is a 32-bit integer, so a
sequence is read back if it has fewer than `2 ^ 32` entries.
-/
namespace WasmMeter

namespace Bytes

@[simp] theorem length_ofWord (width n : Nat) : (ofWord width n).length = width := by
  induction width generalizing n with
  | zero => rfl
  | succ width ih => simp [ofWord, ih]

/-- A number that fits the width is recovered from its bytes. -/
theorem toWord_ofWord {width n : Nat} (h : n < 256 ^ width) : toWord (ofWord width n) = n := by
  induction width generalizing n with
  | zero => simp at h; simp [ofWord, toWord, h]
  | succ width ih =>
      have hdiv : n / 256 < 256 ^ width :=
        Nat.div_lt_of_lt_mul (by rwa [Nat.pow_succ, Nat.mul_comm] at h)
      rw [ofWord, toWord, ih hdiv]
      simp
      omega

theorem ofWord_toWord (bytes : List UInt8) : ofWord bytes.length (toWord bytes) = bytes := by
  induction bytes with
  | nil => rfl
  | cons b bytes ih =>
      have hb := b.toNat_lt
      have hlow : (b.toNat + 256 * toWord bytes).toUInt8 = b := by
        apply UInt8.toNat_inj.1
        rw [UInt8.toNat_ofNat']
        omega
      have hhigh : (b.toNat + 256 * toWord bytes) / 256 = toWord bytes := by omega
      rw [List.length_cons, toWord, ofWord, hlow, hhigh, ih]

/-- A number that has been read as a length is written back as itself. -/
@[simp] theorem ofLength_toNat (n : UInt32) : ofLength n.toNat = ofUInt32 n :=
  congrArg ofUInt32 UInt32.ofNat_toNat

end Bytes

namespace Reader

variable {α : Type}

theorem reads_word {width n : Nat} (h : n < 256 ^ width) :
    Reads (word width) (Bytes.ofWord width n) n := by
  have := (reads_take (Bytes.ofWord width n)).bind_pure Bytes.toWord
  rwa [Bytes.length_ofWord, Bytes.toWord_ofWord h] at this

/-- A length in front of bytes is read as the number of those bytes. -/
theorem reads_length {n : Nat} (h : n < 2 ^ 32) {f : UInt32 → Reader α} {bytes : List UInt8} {a : α}
    (hf : ∀ length, length.toNat = n → Reads (f length) bytes a) :
    Reads (uint32 >>= f) (Bytes.ofLength n ++ bytes) a :=
  (reads_uint32 n.toUInt32).bind (hf _ (by simp; omega))

/-- Counted bytes are read back whole. -/
theorem reads_bytes {bytes : List UInt8} (h : bytes.length < 2 ^ 32) :
    Reads Reader.bytes (Bytes.counted bytes) bytes :=
  reads_length h fun _ hl => by rw [hl]; exact reads_take bytes

/-- A vector is read back if each of its items is. -/
theorem reads_vector {item : Reader α} {bytes : α → List UInt8} {items : List α}
    (h : items.length < 2 ^ 32) (hi : ∀ a ∈ items, Reads item (bytes a) a) :
    Reads (vector item) (Bytes.vector bytes items) items :=
  reads_length h fun _ hl => by rw [hl]; exact reads_times hi

end Reader

end WasmMeter
