import WasmMeter.Text.Hex
import WasmMeter.Text.Quoted

/-!
Why a module is refused. An error names its cause and, where there is one, the absolute offset of
the byte at fault; its wording is a function of the cause.
-/
namespace WasmMeter

/-- What is wrong with the contents of a section. -/
inductive SectionFlaw where
  | unknownId
  | outOfOrder
  | missingSize
  | sizeExceedsInput (size : Nat)
  | contentsCut
  | unreadBytes (count : Nat)
  | invalidName
  | invalidValueType
  | unsupportedForm
  | invalidLimitsFlags
  | invalidMutability
  | invalidImportKind
  | invalidExportKind
  | expressionCut
  | invalidElementFlags
  | invalidDataFlags
  | bodyExceedsSection
deriving DecidableEq, Repr

/-- What is wrong with the immediate of an instruction. -/
inductive ImmediateFlaw where
  | invalidBlockType
  | invalidValueType
deriving DecidableEq, Repr

/-- The spaces in which an index has to resolve. -/
inductive IndexSpace where
  | types
  | functions
deriving DecidableEq, Repr

/-- A place in a module that holds an index. Numbered places count from zero. -/
inductive Site where
  | importEntry (moduleName fieldName : String)
  | declaration (function : Nat)
  | exportEntry (name : String)
  | start
  | elementSegment (segment : Nat)
  | globalInitializer (global : Nat)
  | body (function : Nat)
deriving DecidableEq, Repr

/-- Every reason for refusing an input. -/
inductive Error where
  | badMagic (found : List UInt8)
  | unsupportedVersion (version : UInt32)
  | malformedSection (id : UInt8) (position : Nat) (flaw : SectionFlaw)
  | unexpectedEnd (position wanted : Nat)
  | invalidLeb128 (position : Nat)
  | unknownOpcode (byte : UInt8) (sub : Option UInt32) (position : Nat)
  | invalidImmediate (position : Nat) (flaw : ImmediateFlaw)
  | unmatchedBlockEnd (position : Nat)
  | truncatedBody (position : Nat)
  | trailingCode (position : Nat)
  | noCodeSection
  | functionCountMismatch (declared bodies : Nat)
  | indexOutOfRange (space : IndexSpace) (index length : UInt32) (site : Site)
deriving DecidableEq, Repr

namespace SectionFlaw

/-- The flaw in words. -/
def message : SectionFlaw → String
  | unknownId => "unknown section id"
  | outOfOrder => "section out of order or duplicated"
  | missingSize => "missing section size"
  | sizeExceedsInput size => s!"declared size {size} exceeds the remaining input"
  | contentsCut => "payload ends before its contents"
  | unreadBytes count => s!"{count} unread payload bytes"
  | invalidName => "name is not valid UTF-8"
  | invalidValueType => "invalid value type"
  | unsupportedForm => "unsupported type form"
  | invalidLimitsFlags => "invalid limits flags"
  | invalidMutability => "invalid global mutability"
  | invalidImportKind => "invalid import kind"
  | invalidExportKind => "invalid export kind"
  | expressionCut => "truncated constant expression"
  | invalidElementFlags => "invalid element segment flags"
  | invalidDataFlags => "invalid data segment flags"
  | bodyExceedsSection => "function body exceeds the section"

end SectionFlaw

namespace ImmediateFlaw

/-- The flaw in words. -/
def message : ImmediateFlaw → String
  | invalidBlockType => "invalid block type"
  | invalidValueType => "invalid value type"

end ImmediateFlaw

namespace IndexSpace

/-- What an index of the space refers to. -/
def noun : IndexSpace → String
  | types => "type"
  | functions => "function"

end IndexSpace

namespace Site

/-- The place in words. -/
def describe : Site → String
  | importEntry moduleName fieldName => s!"import {moduleName}.{fieldName}"
  | declaration function => s!"declaration of defined function {function}"
  | exportEntry name => "export " ++ Text.Quoted.quote name
  | start => "start function"
  | elementSegment segment => s!"element segment {segment}"
  | globalInitializer global => s!"initializer of global {global}"
  | body function => s!"body of defined function {function}"

end Site

namespace Error

/-- Where in the input the error was found. Errors about a module as a whole have no offset. -/
def offset? : Error → Option Nat
  | badMagic _ => some 0
  | unsupportedVersion _ => some 4
  | malformedSection _ position _ => some position
  | unexpectedEnd position _ => some position
  | invalidLeb128 position => some position
  | unknownOpcode _ _ position => some position
  | invalidImmediate position _ => some position
  | unmatchedBlockEnd position => some position
  | truncatedBody position => some position
  | trailingCode position => some position
  | noCodeSection => none
  | functionCountMismatch _ _ => none
  | indexOutOfRange _ _ _ _ => none

/-- An offset as diagnostics show it. -/
def locate (position : Nat) : String := " at offset 0x" ++ Text.Hex.ofNat position

/-- The error in words. -/
def message : Error → String
  | badMagic found =>
      "bad magic number [" ++ ", ".intercalate (found.map Text.Hex.ofByte)
        ++ "], expected \\0asm"
  | unsupportedVersion version => s!"unsupported binary version {version.toNat}"
  | malformedSection id position flaw =>
      s!"malformed section {id.toNat}" ++ locate position ++ ": " ++ flaw.message
  | unexpectedEnd position wanted =>
      "unexpected end of input" ++ locate position ++ s!" (wanted {wanted} more bytes)"
  | invalidLeb128 position => "invalid LEB128 integer" ++ locate position
  | unknownOpcode byte sub position =>
      "unknown opcode 0x" ++ Text.Hex.ofByte byte
        ++ (match sub with
            | some sub => s!" {sub.toNat}"
            | none => "")
        ++ locate position
  | invalidImmediate position flaw => flaw.message ++ locate position
  | unmatchedBlockEnd position => "block terminator without an open block" ++ locate position
  | truncatedBody position => "function body truncated" ++ locate position
  | trailingCode position => "instructions after the final `end`" ++ locate position
  | noCodeSection => "module has no code section"
  | functionCountMismatch declared bodies =>
      s!"function section declares {declared} functions but code section has {bodies} bodies"
  | indexOutOfRange space index length site =>
      s!"{space.noun} index {index.toNat} out of range (len {length.toNat}) in {site.describe}"

/-- An input that ends too early is an error of the structure that was being read: it becomes
what `cause` says of its offset. Every other error stays what it is. -/
def mapEnd (cause : Nat → Error) : Error → Error
  | unexpectedEnd position _ => cause position
  | error => error

end Error

end WasmMeter
