import WasmMeter.Bytes
import WasmMeter.Leb128.Read

/-! Reading fixed-width words and sequences behind their length. -/
namespace WasmMeter.Reader

/-- A number of `width` bytes, least significant first. -/
def word (width : Nat) : Reader Nat := return Bytes.toWord (← take width)

/-- A length, then as many bytes. -/
def bytes : Reader (List UInt8) := do take (← uint32).toNat

/-- A length, then as many values. -/
def vector {α : Type} (item : Reader α) : Reader (List α) := do times (← uint32).toNat item

end WasmMeter.Reader
