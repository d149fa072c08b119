import WasmMeter.Instruction

/-!
What a function body is charged when it is entered. Charges are 32-bit integers and stop at the ends
of their range.
-/
namespace WasmMeter

/-- Assigns a charge to a body, given its instructions as they are before metering. -/
structure CostModel where
  charge : List Instruction → Int32

namespace CostModel

/-- The greatest and the least charge. -/
def greatest : Int := Int32.maxValue.toInt

def least : Int := Int32.minValue.toInt

/-- The same for every body. -/
def constant (amount : Int32) : CostModel := ⟨fun _ => amount⟩

/-- `unit` for each instruction, cut off at the ends of the range. -/
def perInstruction (unit : Int32) : CostModel :=
  ⟨fun instructions =>
    Int32.ofInt (max least (min greatest (min (instructions.length : Int) greatest * unit.toInt)))⟩

end CostModel

/-- The names of the metering import, and how bodies are charged. -/
structure GasConfig where
  moduleName : String
  fieldName : String
  cost : Int32
  isPerInstruction : Bool
deriving DecidableEq, Repr

namespace GasConfig

/-- One unit for each body, paid to `env.addgas`. -/
def standard : GasConfig := ⟨"env", "addgas", 1, false⟩

/-- The cost model that the configuration describes. -/
def costModel (config : GasConfig) : CostModel :=
  if config.isPerInstruction then .perInstruction config.cost else .constant config.cost

end GasConfig

end WasmMeter
