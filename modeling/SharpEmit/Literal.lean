/-
SharpEmit/Literal.lean

Plain literals: numbers, quoted strings, `true`, `false` and `null`, with any
white space around them.  An initializer of this form needs nothing else of the
class and can stay on the line of its field.
-/
import SharpEmit.Text.Blank
import SharpEmit.Text.Digit

namespace SharpEmit

namespace Literal

/-! ### Numbers -/

/-- The text after a minus sign, if there is one. -/
def unsigned : List Char → List Char
  | '-' :: rest => rest
  | cs => cs

/-- One or more digits and nothing else. -/
def isDigits (cs : List Char) : Bool := !cs.isEmpty && cs.all Text.isDecimal

/-- The text after the sign of an exponent, if there is one. -/
def unsignedExponent : List Char → List Char
  | '-' :: rest => rest
  | '+' :: rest => rest
  | cs => cs

/-- Nothing, or an exponent: `e` or `E`, a sign or none, digits. -/
def isExponentPart : List Char → Bool
  | [] => true
  | e :: rest => (e = 'e' || e = 'E') && isDigits (unsignedExponent rest)

/-- Nothing, or a point with any number of digits; then perhaps an exponent. -/
def isFractionPart : List Char → Bool
  | '.' :: rest => isExponentPart (rest.dropWhile Text.isDecimal)
  | cs => isExponentPart cs

/-- A decimal number. -/
def isDecimalNumber (cs : List Char) : Bool :=
  let body := unsigned cs
  body.head?.any Text.isDecimal && isFractionPart (body.dropWhile Text.isDecimal)

/-- A hexadecimal number. -/
def isHexNumber (cs : List Char) : Bool :=
  match unsigned cs with
  | '0' :: x :: ds => (x = 'x' || x = 'X') && !ds.isEmpty && ds.all Text.isHex
  | _ => false

/-! ### Strings -/

/-- The rest of a string in the quotes `q`, up to its closing quote and nothing
after it.  A backslash takes any character but a line end with it. -/
def closes (q : Char) : List Char → Bool
  | [] => false
  | '\\' :: [] => false
  | '\\' :: c :: rest => c ≠ '\n' && closes q rest
  | c :: rest => if c = q then rest.isEmpty else closes q rest

/-- A string in the quotes `q`. -/
def isQuoted (q : Char) : List Char → Bool
  | c :: rest => c = q && closes q rest
  | [] => false

/-! ### Literals -/

/-- The words that are literals. -/
def words : List (List Char) := ["true".toList, "false".toList, "null".toList]

/-- A literal without white space around it. -/
def isBare (cs : List Char) : Bool :=
  isDecimalNumber cs || isHexNumber cs || isQuoted '"' cs || isQuoted '\'' cs || words.contains cs

end Literal

/-- A literal, with any white space around it. -/
def isLiteral (s : String) : Bool := Literal.isBare (Text.trim s.toList)

end SharpEmit
