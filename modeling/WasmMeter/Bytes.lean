import WasmMeter.Leb128

/-!
The byte forms of plain values: fixed-width words with the least significant byte first, integers in
seven-bit groups, and sequences behind their length.
-/
namespace WasmMeter.Bytes

/-- The `width` low bytes of a number, least significant first. -/
def ofWord : (width : Nat) → Nat → List UInt8
  | 0, _ => []
  | width + 1, n => n.toUInt8 :: ofWord width (n / 256)

/-- The number whose bytes these are, least significant first. -/
def toWord : List UInt8 → Nat
  | [] => 0
  | b :: rest => b.toNat + 256 * toWord rest

def ofUInt32 (n : UInt32) : List UInt8 := Leb128.ofNat n.toNat

def ofUInt64 (n : UInt64) : List UInt8 := Leb128.ofNat n.toNat

def ofInt32 (i : Int32) : List UInt8 := Leb128.ofInt i.toInt

def ofInt64 (i : Int64) : List UInt8 := Leb128.ofInt i.toInt

/-- A length in front of what it counts. -/
def ofLength (n : Nat) : List UInt8 := ofUInt32 n.toUInt32

/-- Bytes behind their number. -/
def counted (bytes : List UInt8) : List UInt8 := ofLength bytes.length ++ bytes

/-- Values behind their number. -/
def vector {α : Type} (item : α → List UInt8) (items : List α) : List UInt8 :=
  ofLength items.length ++ items.flatMap item

/-- A name in UTF-8, behind the number of its bytes. -/
def ofName (name : String) : List UInt8 := counted name.toUTF8.data.toList

end WasmMeter.Bytes
