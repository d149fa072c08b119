import WasmMeter.Decimal.Shortest

/-!
Decimal text of binary floating-point numbers, from their bits.
-/
namespace WasmMeter

/-- A binary interchange format: a sign bit, exponent bits and fraction bits, from the top. -/
structure FloatFormat where
  exponentBits : Nat
  fractionBits : Nat
deriving DecidableEq, Repr

namespace FloatFormat

def single : FloatFormat := ⟨8, 23⟩

def double : FloatFormat := ⟨11, 52⟩

/-- The text of a finite value without its sign; an exponent field of zero stands for values without
the leading one. -/
def magnitude (f : FloatFormat) (field fraction : Nat) : String :=
  let m := if field = 0 then fraction else 1 <<< f.fractionBits + fraction
  let bias := 1 <<< (f.exponentBits - 1) - 1 + f.fractionBits
  if m = 0 then "0"
  else
    (Decimal.shortest m ((max field 1 : Nat) - bias) (fraction = 0 && 1 < field)).positional

/-- The fewest digits that read back, without an exponent. The sign of a zero is shown, that of a
value that is not a number is not. -/
def text (f : FloatFormat) (bits : Nat) : String :=
  let fraction := bits % 1 <<< f.fractionBits
  let field := bits >>> f.fractionBits % 1 <<< f.exponentBits
  let negative := bits >>> (f.fractionBits + f.exponentBits) % 2 = 1
  let sign := if negative then "-" else ""
  if field = 1 <<< f.exponentBits - 1 then
    if fraction = 0 then sign ++ "inf" else "NaN"
  else sign ++ f.magnitude field fraction

end FloatFormat

end WasmMeter
