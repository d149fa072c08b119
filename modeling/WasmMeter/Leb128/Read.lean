import WasmMeter.Cursor
import WasmMeter.Leb128

/-!
Reading integers of a given width in seven-bit groups. Any number of groups up to the most that the
width needs is accepted, the shortest or not; the value has to fit in the width.
-/
namespace WasmMeter.Reader

open WasmMeter.Leb128

/-- A natural number of which at most `leading` groups precede a last one of `last` bits; `start` is
where it began. -/
def groups (start last : Nat) : (leading : Nat) → Reader Nat
  | 0 => do
      let b ← byte
      if b.toNat < 2 ^ last then return b.toNat
      else throw (.invalidLeb128 start)
  | leading + 1 => do
      let b ← byte
      if b.toNat < 128 then return b.toNat
      else return b.toNat - 128 + 128 * (← groups start last leading)

/-- The same for an integer in two's complement. -/
def signedGroups (start last : Nat) : (leading : Nat) → Reader Int
  | 0 => do
      let b ← byte
      let value := signedGroup b
      if b.toNat < 128 ∧ -2 ^ (last - 1) ≤ value ∧ value < 2 ^ (last - 1) then return value
      else throw (.invalidLeb128 start)
  | leading + 1 => do
      let b ← byte
      if b.toNat < 128 then return signedGroup b
      else return (b.toNat - 128 : Int) + 128 * (← signedGroups start last leading)

/-- A natural number below `2 ^ width`. -/
def unsigned (width : Nat) : Reader Nat := do
  groups (← position) (lastBits width) (leading width)

/-- An integer from `-2 ^ (width - 1)` up to and without `2 ^ (width - 1)`. -/
def signed (width : Nat) : Reader Int := do
  signedGroups (← position) (lastBits width) (leading width)

def uint32 : Reader UInt32 := return (← unsigned 32).toUInt32

def uint64 : Reader UInt64 := return (← unsigned 64).toUInt64

def int32 : Reader Int32 := return Int32.ofInt (← signed 32)

def int64 : Reader Int64 := return Int64.ofInt (← signed 64)

end WasmMeter.Reader
