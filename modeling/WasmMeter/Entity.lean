import WasmMeter.ValueType

/-!
The entries of a module's sections. An entry keeps whatever is needed to write it again as it was
read: flags, indices that are written although they are the default, raw constant expressions.
-/
namespace WasmMeter

/-- The signature of a function. The form byte is `FunctionType.functionForm` in every module that
can be read. -/
structure FunctionType where
  form : UInt8
  params : List ValueType
  results : List ValueType
deriving DecidableEq, Repr

/-- How large a table or a memory may be. The lowest bit of the flags says that there is a maximum,
the next that a memory is shared, and the third that the bounds have 64 bits. -/
structure Limits where
  flags : UInt8
  min : UInt64
  max : Option UInt64
deriving DecidableEq, Repr

structure TableType where
  element : ValueType
  limits : Limits
deriving DecidableEq, Repr

structure GlobalType where
  content : ValueType
  isMutable : Bool
deriving DecidableEq, Repr

/-- What can be imported and exported. -/
inductive ExternalKind where
  | function
  | table
  | memory
  | global
deriving DecidableEq, Repr

/-- What an import brings into the module. A function has the index of its type. -/
inductive ImportType where
  | function (typeIndex : UInt32)
  | table (type : TableType)
  | memory (limits : Limits)
  | global (type : GlobalType)
deriving DecidableEq, Repr

structure Import where
  moduleName : String
  fieldName : String
  type : ImportType
deriving DecidableEq, Repr

/-- An export of the entry with an index in the index space of its kind. -/
structure Export where
  name : String
  kind : ExternalKind
  index : UInt32
deriving DecidableEq, Repr

/-- A constant expression, as the bytes of its instructions with the terminator. -/
structure ConstExpr where
  bytes : List UInt8
deriving DecidableEq, Repr

structure Global where
  type : GlobalType
  init : ConstExpr
deriving DecidableEq, Repr

/-- What a segment puts into a table: functions by index, or one expression for each slot. -/
inductive ElementItems where
  | indices (functions : List UInt32)
  | expressions (slots : List ConstExpr)
deriving DecidableEq, Repr

/-- Entries for a table. The lowest bit of the flags says that the segment is not active, the next
that an active one names its table, and the third that the items are expressions. -/
structure ElementSegment where
  flags : UInt32
  table : UInt32
  offset : Option ConstExpr
  elementType : Option UInt8
  items : ElementItems
deriving DecidableEq, Repr

/-- Bytes for a memory: active on the first one, passive, or active on a memory that is named. -/
structure DataSegment where
  flags : UInt32
  memory : UInt32
  offset : Option ConstExpr
  data : List UInt8
deriving DecidableEq, Repr

/-- The code of a function with its runs of local variables, and the absolute offset of the code in
the input. A body that was not read has offset zero. -/
structure FunctionBody where
  locals : List (UInt32 × ValueType)
  code : List UInt8
  codeOffset : Nat
deriving DecidableEq, Repr

/-- A section whose contents mean nothing to the module. -/
structure CustomSection where
  name : String
  data : List UInt8
deriving DecidableEq, Repr

namespace FunctionType

/-- The form byte of a function type. -/
def functionForm : UInt8 := 0x60

def new (params results : List ValueType) : FunctionType := ⟨functionForm, params, results⟩

/-- Parameters and results between parentheses, with an arrow between them. -/
def text (type : FunctionType) : String :=
  let list (types : List ValueType) := "(" ++ ", ".intercalate (types.map ValueType.name) ++ ")"
  list type.params ++ " -> " ++ list type.results

end FunctionType

namespace Limits

/-- Do these flags announce a maximum? -/
def hasMax (flags : UInt8) : Bool := flags &&& 1 != 0

/-- Do these flags say that the bounds have 64 bits? -/
def isWide (flags : UInt8) : Bool := flags &&& 4 != 0

/-- Only the three lowest flags have a meaning. -/
def validFlags (flags : UInt8) : Bool := flags < 8

end Limits

namespace ExternalKind

def toByte : ExternalKind → UInt8
  | function => 0
  | table => 1
  | memory => 2
  | global => 3

def ofByte? : UInt8 → Option ExternalKind
  | 0 => some function
  | 1 => some table
  | 2 => some memory
  | 3 => some global
  | _ => none

end ExternalKind

namespace ImportType

def kind : ImportType → ExternalKind
  | function _ => .function
  | table _ => .table
  | memory _ => .memory
  | global _ => .global

/-- The index of the type of an imported function. -/
def functionType? : ImportType → Option UInt32
  | function typeIndex => some typeIndex
  | _ => none

end ImportType

namespace ElementSegment

/-- Does a segment with these flags fill a table when the module starts? -/
def isActive (flags : UInt32) : Bool := flags &&& 1 == 0

/-- Do these flags say that the index of a table is written? -/
def namesTable (flags : UInt32) : Bool := flags &&& 3 == 2

/-- Do these flags say that a byte for the kind or type of the items is written? -/
def namesType (flags : UInt32) : Bool := flags &&& 3 != 0

/-- Do these flags say that the items are expressions? -/
def hasExpressions (flags : UInt32) : Bool := flags &&& 4 != 0

end ElementSegment

end WasmMeter
