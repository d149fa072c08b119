import WasmMeter.FileAccess
import WasmMeter.Gas.Metering

/-!
The command line: one input file, and options for the output, the names of the metering import and
the cost. The arguments are read from left to right, and the first one that cannot be what it would
have to be decides. Files are reached through `FileAccess`, so a run is a function of what they hold.
What makes a module valid is not defined here: the check that the user may ask for is a `Validator`.
-/
namespace WasmMeter.CommandLine

/-- The options that take a value. -/
inductive ValueOption where
  | output
  | moduleName
  | fieldName
  | cost
deriving DecidableEq, Repr

/-- The options that take none. -/
inductive Switch where
  | perInstruction
  | validate
  | help
  | version
deriving DecidableEq, Repr

/-- What the arguments have said so far. -/
structure Options where
  input : Option String
  output : Option String
  moduleName : Option String
  fieldName : Option String
  cost : Option Int32
  isPerInstruction : Bool
  isValidating : Bool
deriving DecidableEq, Repr

/-- What the user asks for. -/
inductive Request where
  | meter (input : String) (output : Option String) (config : GasConfig) (isValidating : Bool)
  | information
  | misuse
deriving DecidableEq, Repr

/-- What one argument is by itself. -/
inductive Argument where
  | positional
  | switch (name : Switch)
  | valued (name : ValueOption) (value : Option String)
  | unknown
deriving DecidableEq, Repr

/-- A decimal number with an optional sign, if it fits in 32 bits. -/
def int32? (text : String) : Option Int32 :=
  let read (sign : Int) (digits : List Char) : Option Int32 :=
    if digits.isEmpty || !digits.all Char.isDigit then none
    else
      let value := sign * (digits.foldl (fun n c => 10 * n + (c.toNat - 48)) 0 : Nat)
      if CostModel.least ≤ value ∧ value ≤ CostModel.greatest then some (Int32.ofInt value) else none
  match text.toList with
  | '-' :: digits => read (-1) digits
  | '+' :: digits => read 1 digits
  | digits => read 1 digits

namespace Options

def none : Options := ⟨.none, .none, .none, .none, .none, false, false⟩

/-- Sets what may be given once only. -/
def once {α : Type} (current : Option α) (value : α) : Option α :=
  if current.isSome then .none else some value

/-- A path, which may not be empty. -/
def path? (text : String) : Option String := if text.isEmpty then .none else some text

/-- The options with a value for one of them; nothing if it has one already or cannot take it. -/
def setValue (o : Options) (name : ValueOption) (value : String) : Option Options :=
  match name with
  | .output => do return { o with output := ← once o.output (← path? value) }
  | .moduleName => do return { o with moduleName := ← once o.moduleName value }
  | .fieldName => do return { o with fieldName := ← once o.fieldName value }
  | .cost => do return { o with cost := ← once o.cost (← int32? value) }

/-- The options with the input file; nothing if it is known already. -/
def setInput (o : Options) (value : String) : Option Options := do
  return { o with input := ← once o.input (← path? value) }

/-- What is asked for when all arguments have been read. -/
def request (o : Options) : Request :=
  match o.input with
  | .none => .misuse
  | some input =>
      .meter input o.output
        { moduleName := o.moduleName.getD GasConfig.standard.moduleName
          fieldName := o.fieldName.getD GasConfig.standard.fieldName
          cost := o.cost.getD GasConfig.standard.cost
          isPerInstruction := o.isPerInstruction }
        o.isValidating

end Options

namespace Argument

/-- An option by its long name, with the value behind an equals sign. A switch takes no value. -/
def ofLong (name : String) (value : Option String) : Argument :=
  let valued? : Option ValueOption :=
    match name with
    | "output" => some .output
    | "module" => some .moduleName
    | "field" => some .fieldName
    | "cost" => some .cost
    | _ => none
  let switch? : Option Switch :=
    match name with
    | "per-instruction" => some .perInstruction
    | "validate" => some .validate
    | "help" => some .help
    | "version" => some .version
    | _ => none
  match valued?, switch?, value with
  | some option, _, _ => .valued option value
  | none, some option, none => .switch option
  | none, _, _ => .unknown

/-- An option by its letter. The output may follow its letter directly, or behind an equals sign. -/
def ofShort : List Char → Argument
  | ['o'] => .valued .output none
  | 'o' :: '=' :: value => .valued .output (some (String.ofList value))
  | 'o' :: value => .valued .output (some (String.ofList value))
  | 'h' :: _ => .switch .help
  | 'V' :: _ => .switch .version
  | _ => .unknown

/-- Sorts an argument. A dash alone is no option. -/
def ofText (text : String) : Argument :=
  match text.toList with
  | '-' :: '-' :: long =>
      let name := long.takeWhile (· ≠ '=')
      ofLong (String.ofList name)
        ((long.drop name.length).tail?.map String.ofList)
  | ['-'] => .positional
  | '-' :: letters => ofShort letters
  | _ => .positional

end Argument

/-- May an argument be the value of the option in front of it? What looks like an option may not, but
a cost may be negative. -/
def ValueOption.admits (name : ValueOption) (value : String) : Bool :=
  match value.toList with
  | ['-'] => true
  | '-' :: digits => name = .cost && digits.all Char.isDigit
  | _ => true

namespace Request

/-- Reads arguments none of which is an option. -/
def ofPositionals (o : Options) : List String → Request
  | [] => o.request
  | value :: rest =>
      match o.setInput value with
      | some o => ofPositionals o rest
      | none => .misuse

/-- Reads the arguments behind those that gave the options so far. -/
def ofArgumentsFrom (o : Options) : List String → Request
  | [] => o.request
  | "--" :: rest => ofPositionals o rest
  | text :: rest =>
      match Argument.ofText text with
      | .positional =>
          match o.setInput text with
          | some o => ofArgumentsFrom o rest
          | none => .misuse
      | .switch .perInstruction =>
          if o.isPerInstruction then .misuse
          else ofArgumentsFrom { o with isPerInstruction := true } rest
      | .switch .validate =>
          if o.isValidating then .misuse
          else ofArgumentsFrom { o with isValidating := true } rest
      | .switch .help => .information
      | .switch .version => .information
      | .valued name (some value) =>
          match o.setValue name value with
          | some o => ofArgumentsFrom o rest
          | none => .misuse
      | .valued name none =>
          match rest with
          | [] => .misuse
          | value :: rest =>
              match if name.admits value then o.setValue name value else none with
              | some o => ofArgumentsFrom o rest
              | none => .misuse
      | .unknown => .misuse

def ofArguments (arguments : List String) : Request := ofArgumentsFrom .none arguments

end Request

/-- What a run leaves to its caller: the exit code, the bytes for standard output, and the text for
standard error. -/
structure Report where
  exitCode : UInt8
  output : List UInt8
  diagnostics : String
deriving DecidableEq, Repr

namespace Report

/-- A text with four spaces in front of each of its lines, empty ones too. -/
def indented (text : String) : String :=
  "\n".intercalate ((text.splitOn "\n").map ("    " ++ ·))

/-- What failed, and why. Only the cause is indented; a name in it may hold line breaks. -/
def failure (context cause : String) : Report :=
  ⟨1, [], s!"Error: {context}\n\nCaused by:\n{indented cause}\n"⟩

/-- What is printed on request and on misuse. -/
def usage : String :=
  String.join <| List.map (· ++ "\n")
    ["Usage: wasm-meter [OPTIONS] <INPUT>",
      "",
      "Options:",
      "  -o, --output <OUTPUT>    write the module to a file",
      "      --module <MODULE>    module name of the metering import",
      "      --field <FIELD>      field name of the metering import",
      "      --cost <COST>        charge for each function",
      "      --per-instruction    charge for each instruction",
      "      --validate           check the result",
      "  -h, --help               print this text",
      "  -V, --version            print this text"]

end Report

/-- A check of a whole module, which says what is wrong with it. -/
abbrev Validator := List UInt8 → Except String Unit

/-- The check of a program that has no other: nothing is wrong. -/
def Validator.lenient : Validator := fun _ => .ok ()

/-- The metered module, checked where that is asked for; else the report that says why there is none. -/
def produce (validate : Validator) (isValidating : Bool) (config : GasConfig)
    (bytes : List UInt8) : Except Report (List UInt8) :=
  match addGas bytes config with
  | .error e => .error (.failure "instrumentation failed" e.message)
  | .ok result =>
      match if isValidating then validate result else .ok () with
      | .error cause => .error (.failure "instrumented module failed validation" cause)
      | .ok () => .ok result

variable {m : Type → Type} [Monad m]

/-- Gives the result to a file or to the caller. -/
def deliver (files : FileAccess m) (output : Option String) (result : List UInt8) : m Report :=
  match output with
  | none => return ⟨0, result, ""⟩
  | some path => do
      match ← files.write path result with
      | .error e => return .failure s!"failed to write {path}" e.message
      | .ok () => return ⟨0, [], ""⟩

/-- Reads the input, meters it, and delivers the result. -/
def meterFile (files : FileAccess m) (validate : Validator) (input : String)
    (output : Option String) (config : GasConfig) (isValidating : Bool) : m Report := do
  match ← files.read input with
  | .error e => return .failure s!"failed to read {input}" e.message
  | .ok bytes =>
      match produce validate isValidating config bytes with
      | .error report => return report
      | .ok result => deliver files output result

/-- Does what the arguments ask for. -/
def run (files : FileAccess m) (arguments : List String)
    (validate : Validator := .lenient) : m Report :=
  match Request.ofArguments arguments with
  | .meter input output config isValidating =>
      meterFile files validate input output config isValidating
  | .information => return ⟨0, Report.usage.toUTF8.data.toList, ""⟩
  | .misuse => return ⟨2, [], Report.usage⟩

end WasmMeter.CommandLine
