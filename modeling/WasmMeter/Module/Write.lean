import WasmMeter.Module
import WasmMeter.Section.Write

/-!
The binary form of a module. A section that was read and not changed is written as it was found;
any other is written from its contents.
-/
namespace WasmMeter

namespace Section

/-- The byte of the kind, and the contents behind their length. -/
def canonical (s : Section) : List UInt8 := s.kind.toByte :: Bytes.counted s.payload.toBytes

def toBytes (s : Section) : List UInt8 := if s.isChanged then s.canonical else s.source

end Section

namespace Module

/-- What a binary module begins with: a zero byte and `asm`. -/
def magic : List UInt8 := [0x00, 0x61, 0x73, 0x6d]

/-- The magic number and the version. -/
def header : List UInt8 := magic ++ Bytes.ofWord 4 version.toNat

def toBytes (m : Module) : List UInt8 := header ++ m.sections.flatMap Section.toBytes

end Module

end WasmMeter
