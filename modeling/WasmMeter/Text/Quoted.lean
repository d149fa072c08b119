import WasmMeter.Text.CharacterRanges
import WasmMeter.Text.Hex

/-!
Text between double quotes, as diagnostics show a name. What a reader could not see or could take
for something else is written as an escape; everything else stands for itself.
-/
namespace WasmMeter.Text.Quoted

open WasmMeter.Text

/-- Is a character one that a reader could not see, or could not tell from the one before it? -/
def isHidden (c : Char) : Bool :=
  CharacterRanges.holds CharacterRanges.graphemeExtending c
    || CharacterRanges.holds CharacterRanges.defaultIgnorable c
    || CharacterRanges.holds CharacterRanges.unprintable c

/-- How one character is written. A combining character is escaped even though it is visible,
because it would attach to the character in front of it. -/
def escape (c : Char) : String :=
  if c = '\x00' then "\\0"
  else if c = '\t' then "\\t"
  else if c = '\r' then "\\r"
  else if c = '\n' then "\\n"
  else if c = '"' then "\\\""
  else if c = '\\' then "\\\\"
  else if isHidden c then
    "\\u\x7b" ++ Hex.ofNat c.toNat ++ "\x7d"
  else c.toString

/-- The text between quotes, each character escaped where it has to be. -/
def quote (text : String) : String :=
  "\"" ++ String.join (text.toList.map escape) ++ "\""

end WasmMeter.Text.Quoted
