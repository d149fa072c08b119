/-!
Hexadecimal text in lower case: of a number, without leading zeros, and of bytes, two digits each.
-/
namespace WasmMeter.Text.Hex

/-- The digit for a value below sixteen. -/
def digit (value : Nat) : Char :=
  if value < 10 then Char.ofNat (48 + value) else Char.ofNat (87 + value)

/-- The value of a digit of either case. -/
def value? (c : Char) : Option Nat :=
  if '0' ≤ c ∧ c ≤ '9' then some (c.toNat - 48)
  else if 'a' ≤ c ∧ c ≤ 'f' then some (c.toNat - 87)
  else if 'A' ≤ c ∧ c ≤ 'F' then some (c.toNat - 55)
  else none

/-- A number without leading zeros; zero is a single digit. -/
def ofNat (n : Nat) : String := String.ofList (Nat.toDigits 16 n)

/-- A byte as exactly two digits. -/
def ofByte (b : UInt8) : String :=
  String.ofList [digit (b.toNat / 16), digit (b.toNat % 16)]

/-- A number below `2 ^ (8 * width)` as exactly `2 * width` digits, most significant first. -/
def ofWord (width n : Nat) : String :=
  String.ofList ((List.range (2 * width)).reverse.map fun i => digit ((n >>> (4 * i)) % 16))

/-- Two digits for each byte, in order. -/
def ofBytes (bytes : List UInt8) : String :=
  String.ofList (bytes.flatMap fun b => [digit (b.toNat / 16), digit (b.toNat % 16)])

/-- The number whose digits these are. -/
def toNat? (text : List Char) : Option Nat :=
  text.foldlM (fun n c => (value? c).map (16 * n + ·)) 0

/-- Reads pairs of digits in front of the bytes already collected, last byte first. -/
def toBytes?.go (done : List UInt8) : List Char → Option (List UInt8)
  | [] => some done.reverse
  | [_] => none
  | high :: low :: rest =>
      match value? high, value? low with
      | some h, some l => go (UInt8.ofNat (16 * h + l) :: done) rest
      | _, _ => none

/-- The bytes whose digits these are, if there are two for each byte. -/
def toBytes? (text : String) : Option (List UInt8) := toBytes?.go [] text.toList

end WasmMeter.Text.Hex
