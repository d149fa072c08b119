import WasmMeter.Module

/-!
The index space of functions: the imported functions in the order of their imports, then the defined
ones in the order of their declarations.
-/
namespace WasmMeter

/-- A function of a module, imported by an entry of the import section or defined by the code section,
with the index of its type. -/
inductive FunctionRef where
  | imported (entry : Nat) (typeIndex : UInt32)
  | defined (number : Nat) (typeIndex : UInt32)
deriving DecidableEq, Repr

def FunctionRef.typeIndex : FunctionRef → UInt32
  | imported _ typeIndex => typeIndex
  | defined _ typeIndex => typeIndex

namespace Module

/-- The functions that some import entries bring in. -/
def importedFunctions (entries : List Import) : List FunctionRef :=
  entries.zipIdx.filterMap fun (entry, number) =>
    entry.type.functionType?.map (FunctionRef.imported number)

/-- The functions that some declarations define. -/
def definedFunctions (typeIndices : List UInt32) : List FunctionRef :=
  typeIndices.zipIdx.map fun (typeIndex, number) => .defined number typeIndex

/-- Every function, by its index. -/
def functionSpace (m : Module) : List FunctionRef :=
  importedFunctions m.importEntries ++ definedFunctions m.declarations

/-- The number of functions, imported and defined. Functions are counted in 32 bits, as their indices
are. -/
def functionCount (m : Module) : UInt32 :=
  (m.importedCount .function).toUInt32 + m.declarations.length.toUInt32

/-- The signature of the function with an index. -/
def functionType? (m : Module) (function : Nat) : Option FunctionType := do
  let ref ← m.functionSpace[function]?
  (← m.contents? .types)[ref.typeIndex.toNat]?

end Module

end WasmMeter
