import WasmMeter.Instruction.Text
import WasmMeter.Main
import WasmMeter.Proofs.Causes.Metering
import WasmMeter.Proofs.CommandLine
import WasmMeter.Proofs.Disassembly.Acceptance
import WasmMeter.Proofs.Disassembly.Copying
import WasmMeter.Proofs.Disassembly.Marks
import WasmMeter.Proofs.Location.Metering
import WasmMeter.Proofs.Metering.Configuration
import WasmMeter.Proofs.Metering.Customs
import WasmMeter.Proofs.Metering.Indexed
import WasmMeter.Proofs.Metering.Repetition
import WasmMeter.Proofs.Metering.Sections
import WasmMeter.Proofs.Metering.TypeIndices
import WasmMeter.Proofs.Module.Count
import WasmMeter.Proofs.Module.Grammar
import WasmMeter.Proofs.Module.Touching
import WasmMeter.Proofs.Module.Truncation
