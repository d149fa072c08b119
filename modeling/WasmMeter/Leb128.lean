/-!
Integers in groups of seven bits, least significant group first; a set top bit says that another
group follows. Writing uses as few groups as the value allows. Signed values are in two's complement,
so the last group carries the sign in its sixth bit.
-/
namespace WasmMeter.Leb128

/-- The groups of a natural number. -/
def ofNat (n : Nat) : List UInt8 :=
  if n < 128 then [n.toUInt8]
  else (n % 128 + 128).toUInt8 :: ofNat (n / 128)
termination_by n

/-- The groups of an integer. -/
def ofInt (i : Int) : List UInt8 :=
  if -64 ≤ i ∧ i < 64 then [(i % 128).toNat.toUInt8]
  else ((i % 128).toNat + 128).toUInt8 :: ofInt (i / 128)
termination_by i.natAbs
decreasing_by omega

/-- How many groups may precede the last one that fits in `width` bits. -/
def leading (width : Nat) : Nat := (width - 1) / 7

/-- How many bits of a `width`-bit value the last of the groups that fit carries. -/
def lastBits (width : Nat) : Nat := width - 7 * leading width

/-- The value of a final group whose sixth bit is the sign. -/
def signedGroup (b : UInt8) : Int :=
  if b.toNat < 64 then b.toNat else b.toNat - 128

end WasmMeter.Leb128
