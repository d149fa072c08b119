import WasmMeter.CommandLine

/-!
The program: hands the arguments and the file system to `CommandLine.run`. It has no validator of its
own, so where a check of the result is asked for, nothing is found wrong with it.
-/
namespace WasmMeter

/-- A system error by its code, which may be given with either sign. -/
def FileError.ofSystem (e : IO.Error) : FileError :=
  let ofWord (code : UInt32) (details : String) : FileError :=
    .ofCode code.toInt32.toInt.natAbs details
  match e with
  | .noFileOrDirectory _ code details => ofWord code details
  | .permissionDenied _ code details => ofWord code details
  | .inappropriateType _ code details => ofWord code details
  | .alreadyExists _ code details => ofWord code details
  | .invalidArgument _ code details => ofWord code details
  | .resourceExhausted _ code details => ofWord code details
  | .hardwareFault code details => ofWord code details
  | .otherError code details => ofWord code details
  | e => .ofCode 5 (toString e)

/-- The file system of the machine. -/
def FileAccess.system : FileAccess BaseIO where
  read path := do
    match ← (IO.FS.readBinFile path).toBaseIO with
    | .ok bytes => return .ok bytes.toList
    | .error e => return .error (.ofSystem e)
  write path bytes := do
    match ← (IO.FS.writeBinFile path ⟨bytes.toArray⟩).toBaseIO with
    | .ok () => return .ok ()
    | .error e => return .error (.ofSystem e)

end WasmMeter

/-- Runs on the files of the machine and prints what the run leaves. -/
def main (arguments : List String) : IO UInt32 := do
  let report ← (WasmMeter.CommandLine.run .system arguments .lenient : BaseIO _)
  let stdout ← IO.getStdout
  stdout.write ⟨report.output.toArray⟩
  stdout.flush
  IO.eprint report.diagnostics
  return report.exitCode.toUInt32
