/-!
The shortest decimal that reads back. Among the decimals inside an interval around a value, one with
the fewest digits is chosen, and among those the one nearest to the value. All of it is arithmetic on
natural numbers: the interval is given in units of a power of ten that is fine enough to be exact.
-/
namespace WasmMeter

/-- The number `digits * 10 ^ exponent`. -/
structure Decimal where
  digits : Nat
  exponent : Int
deriving DecidableEq, Repr

/-- A value and the bounds of what reads back as that value, in one unit. Both bounds belong to the
interval or neither does. -/
structure Decimal.Interval where
  value : Nat
  low : Nat
  high : Nat
  closed : Bool
deriving DecidableEq, Repr

namespace Decimal.Interval

/-- Does a number read back as the value? -/
def holds (i : Interval) (x : Nat) : Bool :=
  if i.closed then i.low ≤ x && x ≤ i.high else i.low < x && x < i.high

/-- The multiple of `step` in the interval that is nearest to the value. Only the two neighbours of
the value can be nearest; of two that are equally near the greater is taken. -/
def nearest? (i : Interval) (step : Nat) : Option Nat :=
  let below := i.value / step * step
  let above := below + step
  match i.holds below, i.holds above with
  | true, true => some (if i.value - below < above - i.value then below else above)
  | true, false => some below
  | false, true => some above
  | false, false => none

/-- The powers of ten that can be steps, coarsest first. -/
def exponents (i : Interval) : List Nat :=
  (List.range ((Nat.toDigits 10 i.value).length + 1)).reverse

/-- The nearest multiple on the coarsest grid that meets the interval, with the exponent of that
grid. The grid of step one always does, since the value itself lies on it. -/
def shortest (i : Interval) : Nat × Nat :=
  (i.exponents.findSome? fun e =>
    (i.nearest? (Nat.pow 10 e)).map fun x => (x / Nat.pow 10 e, e)).getD
    (i.value, 0)

end Decimal.Interval

namespace Decimal

/-- The shortest decimal that reads back as `m * 2 ^ q`, where the neighbouring values lie one unit of
`m` away; below, half a unit if `narrow`. A number halfway to a neighbour reads back as `m` if `m`
is even. -/
def shortest (m : Nat) (q : Int) (narrow : Bool) : Decimal :=
  let places := (2 - q).toNat
  let unit := if q < 2 then Nat.pow 5 places else 1 <<< (q - 2).toNat
  let interval : Interval :=
    { value := 4 * m * unit
      low := (4 * m - if narrow then 1 else 2) * unit
      high := (4 * m + 2) * unit
      closed := m % 2 = 0 }
  let (digits, exponent) := interval.shortest
  ⟨digits, (exponent : Int) - places⟩

/-- The digits around a point, without an exponent; a whole number has no point. -/
def positional (d : Decimal) : String :=
  let text := Nat.toDigits 10 d.digits
  let places := (-d.exponent).toNat
  String.ofList <|
    if d.exponent ≥ 0 then text ++ List.replicate d.exponent.toNat '0'
    else if places < text.length then
      text.take (text.length - places) ++ '.' :: text.drop (text.length - places)
    else '0' :: '.' :: List.replicate (places - text.length) '0' ++ text

end Decimal

end WasmMeter
