/-
SharpEmit/Text/Integer.lean

Integers as users type them: white space around, a sign, digits of any script,
and single underscores between digits.
-/
import SharpEmit.Text.Blank
import SharpEmit.Text.Digit

namespace SharpEmit.Text

/-! ### Plain characters -/

/-- White space and digits of any script by their ASCII counterparts; other
characters outside ASCII have none. -/
def plainChar (c : Char) : Char :=
  if c.toNat < 0x7f then c
  else if isBlank c then ' '
  else
    match digitValue? c with
    | some v => Char.ofNat ('0'.toNat + v)
    | none => '?'

/-- A text in plain characters; one that is in ASCII stays as it is. -/
def plain (cs : List Char) : List Char :=
  if cs.all (·.toNat < 0x80) then cs else cs.map plainChar

/-! ### Integers -/

/-- The most digits that an integer may have. -/
def integerDigitLimit : Nat := 4300

/-- The number that groups of digits with underscores between them stand for. -/
def groupedDigits? (cs : List Char) : Option Nat :=
  let groups := cs.splitOn '_'
  let digits := groups.flatten
  if groups.all (fun g => !g.isEmpty && g.all fun d => '0' ≤ d && d ≤ '9') &&
      digits.length ≤ integerDigitLimit then
    some (decimalValue digits)
  else none

/-- The integer that a text stands for. -/
def integer? (s : String) : Option Int :=
  match trimBy isAsciiBlank (plain s.toList) with
  | '-' :: rest => (groupedDigits? rest).map fun n => -(n : Int)
  | '+' :: rest => (groupedDigits? rest).map fun n => (n : Int)
  | cs => (groupedDigits? cs).map fun n => (n : Int)

end SharpEmit.Text
