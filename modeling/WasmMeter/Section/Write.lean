import WasmMeter.Bytes
import WasmMeter.Section.Kind

/-!
The byte form of section contents. Flags are written as they are and not derived from what else an
entry holds; the optional parts of an entry are written when they are there.
-/
namespace WasmMeter

def FunctionType.toBytes (type : FunctionType) : List UInt8 :=
  type.form :: Bytes.vector (fun t => [t.toByte]) type.params
    ++ Bytes.vector (fun t => [t.toByte]) type.results

/-- A bound of 64 bits as it is, any other in its 32 low bits. -/
def Limits.boundBytes (flags : UInt8) (bound : UInt64) : List UInt8 :=
  if isWide flags then Bytes.ofUInt64 bound else Bytes.ofUInt32 bound.toUInt32

def Limits.toBytes (limits : Limits) : List UInt8 :=
  limits.flags :: boundBytes limits.flags limits.min
    ++ (limits.max.map (boundBytes limits.flags)).getD []

def TableType.toBytes (type : TableType) : List UInt8 :=
  type.element.toByte :: type.limits.toBytes

def GlobalType.toBytes (type : GlobalType) : List UInt8 :=
  [type.content.toByte, if type.isMutable then 1 else 0]

def ImportType.toBytes : ImportType → List UInt8
  | .function typeIndex => Bytes.ofUInt32 typeIndex
  | .table type => type.toBytes
  | .memory limits => limits.toBytes
  | .global type => type.toBytes

def Import.toBytes (entry : Import) : List UInt8 :=
  Bytes.ofName entry.moduleName ++ Bytes.ofName entry.fieldName
    ++ entry.type.kind.toByte :: entry.type.toBytes

def Export.toBytes (entry : Export) : List UInt8 :=
  Bytes.ofName entry.name ++ entry.kind.toByte :: Bytes.ofUInt32 entry.index

def Global.toBytes (entry : Global) : List UInt8 := entry.type.toBytes ++ entry.init.bytes

/-- An optional expression, nothing if it is missing. -/
def ConstExpr.optionBytes (expression : Option ConstExpr) : List UInt8 :=
  (expression.map ConstExpr.bytes).getD []

def ElementItems.toBytes : ElementItems → List UInt8
  | .indices items => Bytes.vector Bytes.ofUInt32 items
  | .expressions items => Bytes.vector ConstExpr.bytes items

def ElementSegment.toBytes (segment : ElementSegment) : List UInt8 :=
  Bytes.ofUInt32 segment.flags
    ++ (if namesTable segment.flags then Bytes.ofUInt32 segment.table else [])
    ++ ConstExpr.optionBytes segment.offset
    ++ segment.elementType.toList
    ++ segment.items.toBytes

def DataSegment.toBytes (segment : DataSegment) : List UInt8 :=
  Bytes.ofUInt32 segment.flags
    ++ (if segment.flags = 2 then Bytes.ofUInt32 segment.memory else [])
    ++ ConstExpr.optionBytes segment.offset
    ++ Bytes.counted segment.data

/-- A run of local variables of one type. -/
def FunctionBody.localBytes : UInt32 × ValueType → List UInt8
  | (count, type) => Bytes.ofUInt32 count ++ [type.toByte]

def FunctionBody.toBytes (body : FunctionBody) : List UInt8 :=
  Bytes.counted (Bytes.vector localBytes body.locals ++ body.code)

def CustomSection.toBytes (custom : CustomSection) : List UInt8 :=
  Bytes.ofName custom.name ++ custom.data

/-- The contents of a section of a kind. -/
def SectionKind.contentsBytes : (kind : SectionKind) → kind.Contents → List UInt8
  | .custom, entry => entry.toBytes
  | .types, entries => Bytes.vector FunctionType.toBytes entries
  | .imports, entries => Bytes.vector Import.toBytes entries
  | .functions, typeIndices => Bytes.vector Bytes.ofUInt32 typeIndices
  | .tables, entries => Bytes.vector TableType.toBytes entries
  | .memories, entries => Bytes.vector Limits.toBytes entries
  | .globals, entries => Bytes.vector Global.toBytes entries
  | .exports, entries => Bytes.vector Export.toBytes entries
  | .start, function => Bytes.ofUInt32 function
  | .elements, segments => Bytes.vector ElementSegment.toBytes segments
  | .code, bodies => Bytes.vector FunctionBody.toBytes bodies
  | .data, segments => Bytes.vector DataSegment.toBytes segments
  | .dataCount, count => Bytes.ofUInt32 count

def Payload.toBytes (payload : Payload) : List UInt8 :=
  payload.kind.contentsBytes payload.contents

end WasmMeter
