/-
SharpEmit/Json/Printer.lean

Writing JSON text: no white space, members in their order, characters outside
ASCII as they are.
-/
import SharpEmit.Decimal.Shortest
import SharpEmit.Json.Basic
import SharpEmit.Text.Digit

namespace SharpEmit.Json

/-! ### Written values -/

/-- Numbers in written text. -/
def writtenReal : Decimal.NumberStyle :=
  { fixedFrom := -4, fixedBelow := 16, exponentWidth := 2, infinity := "Infinity", nan := "NaN" }

/-- One character inside a written string. -/
def escapeChar (c : Char) : List Char :=
  if c = '"' then ['\\', '"']
  else if c = '\\' then ['\\', '\\']
  else if c = '\n' then ['\\', 'n']
  else if c = '\r' then ['\\', 'r']
  else if c = '\t' then ['\\', 't']
  else if c = '\x08' then ['\\', 'b']
  else if c = '\x0c' then ['\\', 'f']
  else if c < ' ' then '\\' :: 'u' :: Text.hexDigits 4 c.toNat
  else [c]

/-- A written string. -/
def writeString (s : String) : String :=
  "\"" ++ String.ofList (s.toList.flatMap escapeChar) ++ "\""

mutual

/-- A value as JSON text. -/
def write : Json → String
  | .null => "null"
  | .bool b => if b then "true" else "false"
  | .int i => toString i
  | .real x => writtenReal.show x
  | .str s => writeString s
  | .arr items => "[" ++ ",".intercalate (writeItems items) ++ "]"
  | .obj members => "\x7b" ++ ",".intercalate (writeMembers members) ++ "\x7d"

/-- The items of a list, one by one. -/
def writeItems : List Json → List String
  | [] => []
  | item :: rest => write item :: writeItems rest

/-- The members of an object, one by one. -/
def writeMembers : List (String × Json) → List String
  | [] => []
  | (key, value) :: rest => (writeString key ++ ":" ++ write value) :: writeMembers rest

end

end SharpEmit.Json
