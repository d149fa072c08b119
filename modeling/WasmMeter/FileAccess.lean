/-!
Reaching files by path: what can be asked for, and why it may be refused. Where the files are is
left open; they may be those of the machine or those of a `FileTree`.
-/
namespace WasmMeter

/-- Why a file cannot be read or written, as the system says it. -/
structure FileError where
  description : String
  code : Nat
deriving DecidableEq, Repr

namespace FileError

def missing : FileError := ⟨"No such file or directory", 2⟩

def notADirectory : FileError := ⟨"Not a directory", 20⟩

def isADirectory : FileError := ⟨"Is a directory", 21⟩

def nameTooLong : FileError := ⟨"File name too long", 36⟩

def accessDenied : FileError := ⟨"Permission denied", 13⟩

/-- The error with a code; `description` is for a code that has none of its own here. -/
def ofCode (code : Nat) (description : String) : FileError :=
  ([missing, accessDenied, notADirectory, isADirectory, nameTooLong].find? (·.code = code)).getD
    ⟨description, code⟩

def message (e : FileError) : String := s!"{e.description} (os error {e.code})"

end FileError

/-- The ways in which a run reaches files. Writing creates a file or replaces its contents. -/
structure FileAccess (m : Type → Type) where
  read : String → m (Except FileError (List UInt8))
  write : String → List UInt8 → m (Except FileError Unit)

end WasmMeter
