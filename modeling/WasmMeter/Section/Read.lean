import WasmMeter.Bytes.Read
import WasmMeter.Disassembly
import WasmMeter.Section.Kind

/-!
Reading the contents of a section. A flaw is reported with the kind of the section that is being
read and the offset of the value at fault; bytes that run out are left to the caller, who knows where
the section ends.
-/
namespace WasmMeter

/-- A flaw in a section of a known kind. -/
def SectionKind.malformed (kind : SectionKind) (flaw : SectionFlaw) (position : Nat) : Error :=
  .malformedSection kind.toByte position flaw

namespace Reader

variable (kind : SectionKind)

/-- A name, which has to be valid UTF-8. -/
def name : Reader String := do
  let start ← position
  match String.fromUTF8? ⟨(← bytes).toArray⟩ with
  | some name => return name
  | none => throw (kind.malformed .invalidName start)

/-- A value type of an entry. -/
def entryType : Reader ValueType := valueType (kind.malformed .invalidValueType)

def functionType : Reader FunctionType := do
  let start ← position
  let form ← byte
  if form = FunctionType.functionForm then
    let params ← vector (entryType kind)
    return ⟨form, params, ← vector (entryType kind)⟩
  else throw (kind.malformed .unsupportedForm start)

/-- A bound of limits with these flags. -/
def bound (flags : UInt8) : Reader UInt64 :=
  if Limits.isWide flags then uint64 else UInt32.toUInt64 <$> uint32

def limits : Reader Limits := do
  let start ← position
  let flags ← byte
  if Limits.validFlags flags then
    let min ← bound flags
    let max ← if Limits.hasMax flags then some <$> bound flags else pure none
    return ⟨flags, min, max⟩
  else throw (kind.malformed .invalidLimitsFlags start)

def tableType : Reader TableType := do
  let element ← entryType kind
  return ⟨element, ← limits kind⟩

def globalType : Reader GlobalType := do
  let content ← entryType kind
  let start ← position
  match ← byte with
  | 0 => return ⟨content, false⟩
  | 1 => return ⟨content, true⟩
  | _ => throw (kind.malformed .invalidMutability start)

/-- A kind of import or export; `flaw` is what any other byte is. -/
def externalKind (flaw : SectionFlaw) : Reader ExternalKind := do
  let start ← position
  match ExternalKind.ofByte? (← byte) with
  | some external => return external
  | none => throw (kind.malformed flaw start)

/-- What an import of a kind brings in. -/
def importType : ExternalKind → Reader ImportType
  | .function => .function <$> uint32
  | .table => .table <$> tableType kind
  | .memory => .memory <$> limits kind
  | .global => .global <$> globalType kind

def importEntry : Reader Import := do
  let moduleName ← name kind
  let fieldName ← name kind
  return ⟨moduleName, fieldName, ← importType kind (← externalKind kind .invalidImportKind)⟩

def exportEntry : Reader Export := do
  let name ← name kind
  let external ← externalKind kind .invalidExportKind
  return ⟨name, external, ← uint32⟩

/-- What an error inside a constant expression is to the section around it. -/
def expressionError : Error → Error
  | .truncatedBody position => kind.malformed .expressionCut position
  | error => error

/-- A constant expression. Its instructions are read to find its end; only its bytes are kept. -/
def constExpr : Reader ConstExpr := do
  let (_, source) ← (withSource Disassembly.read).adaptExcept (expressionError kind)
  return ⟨source⟩

def global : Reader Global := do
  let type ← globalType kind
  return ⟨type, ← constExpr kind⟩

/-- The items of a segment with these flags. -/
def elementItems (flags : UInt32) : Reader ElementItems :=
  if ElementSegment.hasExpressions flags then .expressions <$> vector (constExpr kind)
  else .indices <$> vector uint32

def elementSegment : Reader ElementSegment := do
  let start ← position
  let flags ← uint32
  if 7 < flags then throw (kind.malformed .invalidElementFlags start)
  let table ← if ElementSegment.namesTable flags then uint32 else pure 0
  let offset ← if ElementSegment.isActive flags then some <$> constExpr kind else pure none
  let elementType ← if ElementSegment.namesType flags then some <$> byte else pure none
  return ⟨flags, table, offset, elementType, ← elementItems kind flags⟩

def dataSegment : Reader DataSegment := do
  let start ← position
  let flags ← uint32
  if 2 < flags then throw (kind.malformed .invalidDataFlags start)
  let memory ← if flags = 2 then uint32 else pure 0
  let offset ← if flags = 1 then pure none else some <$> constExpr kind
  return ⟨flags, memory, offset, ← bytes⟩

/-- A run of local variables of one type. -/
def localRun : Reader (UInt32 × ValueType) := do
  let count ← uint32
  return (count, ← entryType kind)

/-- What is inside a function body: its local variables, and code up to its end. -/
def bodyContents : Reader FunctionBody := do
  let locals ← vector (localRun kind)
  let codeOffset ← position
  return ⟨locals, ← takeRest, codeOffset⟩

/-- A function body. Its code is not looked at here. -/
def functionBody : Reader FunctionBody := do
  let size ← uint32
  let start ← position
  let inside ← mapEnd (fun _ => kind.malformed .bodyExceedsSection start) (window size.toNat)
  return (← within inside (bodyContents kind)).1

def customSection : Reader CustomSection := do
  let name ← name kind
  return ⟨name, ← takeRest⟩

/-- The contents of a section of a kind. -/
def contents : (kind : SectionKind) → Reader kind.Contents
  | .custom => customSection .custom
  | .types => vector (functionType .types)
  | .imports => vector (importEntry .imports)
  | .functions => vector uint32
  | .tables => vector (tableType .tables)
  | .memories => vector (limits .memories)
  | .globals => vector (global .globals)
  | .exports => vector (exportEntry .exports)
  | .start => uint32
  | .elements => vector (elementSegment .elements)
  | .code => vector (functionBody .code)
  | .data => vector (dataSegment .data)
  | .dataCount => uint32

def payload : Reader Payload := return ⟨kind, ← contents kind⟩

end Reader

end WasmMeter
