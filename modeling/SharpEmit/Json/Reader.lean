/-
SharpEmit/Json/Reader.lean

Reading JSON text.  Beyond the standard grammar the words `NaN`, `Infinity` and
`-Infinity` are numbers, and a limit on the digits of an integer may be set.
The first fault is reported with the line on which it stands.  An escape that is
half a surrogate pair on its own stands for no character, and no string of this
library can hold it: such a text is refused.

Every reader takes the rest of the text and returns what it read with what
follows.  A place in the text is given by the number of characters from there to
the end.
-/
import SharpEmit.Json.Basic
import SharpEmit.Text.Digit

namespace SharpEmit.Json

/-! ### Faults -/

/-- What can be wrong with a JSON text. -/
inductive Problem where
  | byteOrderMark
  | expectingValue
  | expectingName
  | expectingColon
  | expectingComma
  | extraData
  | unterminatedString
  | controlCharacter
  | badEscape
  | badUnicodeEscape
deriving DecidableEq, Repr

/-- The problem in words. -/
def Problem.text : Problem → String
  | .byteOrderMark => "Unexpected UTF-8 BOM (decode using utf-8-sig)"
  | .expectingValue => "Expecting value"
  | .expectingName => "Expecting property name enclosed in double quotes"
  | .expectingColon => "Expecting ':' delimiter"
  | .expectingComma => "Expecting ',' delimiter"
  | .extraData => "Extra data"
  | .unterminatedString => "Unterminated string starting at"
  | .controlCharacter => "Invalid control character at"
  | .badEscape => "Invalid \\escape"
  | .badUnicodeEscape => "Invalid \\uXXXX escape"

/-- Why a text could not be read: a problem at a place, an integer of more digits
than the limit, or half a surrogate pair on its own. -/
inductive Stop where
  | malformed (problem : Problem) (left : Nat)
  | tooManyDigits (count : Nat)
  | loneSurrogate (left : Nat)
deriving DecidableEq, Repr

/-- Why a text could not be read, with the line of the problem. -/
inductive ReadError where
  | malformed (problem : Problem) (line : Nat)
  | tooManyDigits (limit count : Nat)
  | loneSurrogate (line : Nat)
deriving DecidableEq, Repr

/-! ### Characters -/

/-- White space between tokens. -/
def isGap (c : Char) : Bool := c = ' ' || c = '\t' || c = '\n' || c = '\r'

/-- The text after its leading white space. -/
def skipGap (cs : List Char) : List Char := cs.dropWhile isGap

/-- One of the digits `0`–`9`. -/
def isDigit (c : Char) : Bool := '0' ≤ c && c ≤ '9'

/-! ### Strings -/

/-- What a backslash and one more character stand for. -/
def simpleEscape? : Char → Option Char
  | '"' => some '"'
  | '\\' => some '\\'
  | '/' => some '/'
  | 'b' => some '\x08'
  | 'f' => some '\x0c'
  | 'n' => some '\n'
  | 'r' => some '\r'
  | 't' => some '\t'
  | _ => none

/-- The value of four hexadecimal digits. -/
def hexQuad? (a b c d : Char) : Option Nat := do
  let a ← Text.hexValue? a
  let b ← Text.hexValue? b
  let c ← Text.hexValue? c
  let d ← Text.hexValue? d
  pure (((16 * a + b) * 16 + c) * 16 + d)

/-- The first half of a surrogate pair. -/
def isHighSurrogate (n : Nat) : Bool := 0xD800 ≤ n && n < 0xDC00

/-- The second half of a surrogate pair. -/
def isLowSurrogate (n : Nat) : Bool := 0xDC00 ≤ n && n < 0xE000

/-- The character of a code point; half a surrogate pair has none. -/
def charOfCode? (n : Nat) : Option Char :=
  if isHighSurrogate n || isLowSurrogate n then none else some (Char.ofNat n)

/-- The character that a surrogate pair stands for. -/
def joinSurrogates (high low : Nat) : Char :=
  Char.ofNat (0x10000 + (high - 0xD800) * 0x400 + (low - 0xDC00))

/-- The rest of a string whose opening quote stands at `start`; `read` holds the
characters read so far, the last one first.  After the four digits of an escape
at least one more character must follow.  Half a surrogate pair on its own is
refused when the rest of the string has no fault. -/
def stringRest (start : Nat) (read : List Char) : List Char → Except Stop (String × List Char)
  | [] => .error (.malformed .unterminatedString start)
  | '"' :: rest => .ok (String.ofList read.reverse, rest)
  | '\\' :: 'u' :: a :: b :: c :: d :: '\\' :: 'u' :: e :: f :: g :: h :: rest =>
    let left := rest.length + 11
    match hexQuad? a b c d with
    | none => .error (.malformed .badUnicodeEscape left)
    | some high =>
      if isHighSurrogate high && !rest.isEmpty then
        match hexQuad? e f g h with
        | none => .error (.malformed .badUnicodeEscape left)
        | some low =>
          if isLowSurrogate low then
            stringRest start (joinSurrogates high low :: read) rest
          else do
            let _ ← stringRest start read ('\\' :: 'u' :: e :: f :: g :: h :: rest)
            .error (.loneSurrogate left)
      else
        match charOfCode? high with
        | none => do
          let _ ← stringRest start read ('\\' :: 'u' :: e :: f :: g :: h :: rest)
          .error (.loneSurrogate left)
        | some char => stringRest start (char :: read) ('\\' :: 'u' :: e :: f :: g :: h :: rest)
  | '\\' :: 'u' :: a :: b :: c :: d :: next :: rest =>
    match hexQuad? a b c d with
    | none => .error (.malformed .badUnicodeEscape (rest.length + 6))
    | some n =>
      match charOfCode? n with
      | none => do
        let _ ← stringRest start read (next :: rest)
        .error (.loneSurrogate (rest.length + 6))
      | some char => stringRest start (char :: read) (next :: rest)
  | '\\' :: 'u' :: rest => .error (.malformed .badUnicodeEscape (rest.length + 1))
  | ['\\'] => .error (.malformed .unterminatedString start)
  | '\\' :: e :: rest =>
    match simpleEscape? e with
    | none => .error (.malformed .badEscape (rest.length + 2))
    | some c => stringRest start (c :: read) rest
  | c :: rest =>
    if c < ' ' then .error (.malformed .controlCharacter (rest.length + 1))
    else stringRest start (c :: read) rest
termination_by cs => cs.length

/-! ### Numbers -/

/-- The exponent at the front of a text: `e` or `E`, a sign or none, and digits. -/
def exponent? (cs : List Char) : Option (Int × List Char) :=
  match cs with
  | e :: rest =>
    if e = 'e' ∨ e = 'E' then
      let (negative, rest) :=
        match rest with
        | '-' :: rest => (true, rest)
        | '+' :: rest => (false, rest)
        | rest => (false, rest)
      let digits := rest.takeWhile isDigit
      if digits.isEmpty then none
      else
        let n : Int := Text.decimalValue digits
        some (if negative then -n else n, rest.dropWhile isDigit)
    else none
  | [] => none

/-- The fraction at the front of a text: a point and digits. -/
def fraction? (cs : List Char) : Option (List Char × List Char) :=
  match cs with
  | '.' :: rest =>
    let digits := rest.takeWhile isDigit
    if digits.isEmpty then none else some (digits, rest.dropWhile isDigit)
  | _ => none

/-- The digits before the point: `0` alone, or digits that do not start with it. -/
def wholePart? (cs : List Char) : Option (List Char × List Char) :=
  match cs with
  | '0' :: rest => some (['0'], rest)
  | d :: rest => if isDigit d then some (d :: rest.takeWhile isDigit, rest.dropWhile isDigit) else none
  | [] => none

/-- A number; one with a fraction or an exponent is real, any other an integer. -/
def number (limit : Option Nat) (cs : List Char) : Except Stop (Json × List Char) :=
  let (negative, body) :=
    match cs with
    | '-' :: rest => (true, rest)
    | _ => (false, cs)
  match wholePart? body with
  | none => .error (.malformed .expectingValue cs.length)
  | some (whole, rest) =>
    let fraction := fraction? rest
    let (decimals, rest) := fraction.getD ([], rest)
    let exponent := exponent? rest
    let (power, rest) := exponent.getD (0, rest)
    if fraction.isSome || exponent.isSome then
      let digits := Text.decimalValue (whole ++ decimals)
      .ok (.real (.ofDecimal negative digits (power - decimals.length)), rest)
    else if limit.any (· < whole.length) then .error (.tooManyDigits whole.length)
    else
      let n : Int := Text.decimalValue whole
      .ok (.int (if negative then -n else n), rest)

/-! ### Values -/

/-- Words that stand for a value. -/
def words : List (List Char × Json) :=
  [("null".toList, .null), ("true".toList, .bool true), ("false".toList, .bool false),
    ("NaN".toList, .real .nan), ("Infinity".toList, .real (.infinite false)),
    ("-Infinity".toList, .real (.infinite true))]

/-- A word at the front of a text. -/
def word? (cs : List Char) : Option (Json × List Char) :=
  words.findSome? fun w =>
    if w.1.isPrefixOf cs then some (w.2, cs.drop w.1.length) else none

mutual

/-- A value at the front of a text.  Every call reads a character at least, so
the length of the text is fuel enough. -/
def value (limit : Option Nat) : Nat → List Char → Except Stop (Json × List Char)
  | 0, cs => .error (.malformed .expectingValue cs.length)
  | fuel + 1, cs =>
    match cs with
    | '"' :: rest => do
      let (s, rest) ← stringRest cs.length [] rest
      pure (.str s, rest)
    | '[' :: rest =>
      match skipGap rest with
      | ']' :: rest => .ok (.arr [], rest)
      | rest => listItems limit fuel [] rest
    | '\x7b' :: rest =>
      match skipGap rest with
      | '\x7d' :: rest => .ok (.obj [], rest)
      | rest => objectMembers limit fuel [] rest
    | _ =>
      match word? cs with
      | some found => .ok found
      | none => number limit cs

/-- The items of a list up to its bracket; `read` holds those read so far, the
last one first. -/
def listItems (limit : Option Nat) : Nat → List Json → List Char → Except Stop (Json × List Char)
  | 0, _, cs => .error (.malformed .expectingValue cs.length)
  | fuel + 1, read, cs => do
    let (item, rest) ← value limit fuel cs
    match skipGap rest with
    | ']' :: rest => pure (.arr (item :: read).reverse, rest)
    | ',' :: rest => listItems limit fuel (item :: read) (skipGap rest)
    | rest => .error (.malformed .expectingComma rest.length)

/-- The members of an object up to its brace; `read` holds those read so far. -/
def objectMembers (limit : Option Nat) :
    Nat → List (String × Json) → List Char → Except Stop (Json × List Char)
  | 0, _, cs => .error (.malformed .expectingName cs.length)
  | fuel + 1, read, cs =>
    match cs with
    | '"' :: rest => do
      let (key, rest) ← stringRest cs.length [] rest
      match skipGap rest with
      | ':' :: rest =>
        let (item, rest) ← value limit fuel (skipGap rest)
        let read := putMember read key item
        match skipGap rest with
        | '\x7d' :: rest => pure (.obj read, rest)
        | ',' :: rest => objectMembers limit fuel read (skipGap rest)
        | rest => .error (.malformed .expectingComma rest.length)
      | rest => .error (.malformed .expectingColon rest.length)
    | _ => .error (.malformed .expectingName cs.length)

end

/-! ### Texts -/

/-- A whole text as one value. -/
def wholeText (limit : Option Nat) (cs : List Char) : Except Stop Json :=
  if cs.head? = some '\ufeff' then .error (.malformed .byteOrderMark cs.length)
  else do
    let (v, rest) ← value limit (2 * cs.length + 2) (skipGap cs)
    match skipGap rest with
    | [] => pure v
    | rest => .error (.malformed .extraData rest.length)

/-- The line of the place with `left` characters to the end. -/
def lineAt (cs : List Char) (left : Nat) : Nat :=
  (cs.take (cs.length - left)).count '\n' + 1

/-- Reads a text, refusing integers of more digits than the limit, if one is set. -/
def parse (limit : Option Nat) (cs : List Char) : Except ReadError Json :=
  match wholeText limit cs with
  | .ok v => .ok v
  | .error (.malformed problem left) => .error (.malformed problem (lineAt cs left))
  | .error (.tooManyDigits count) => .error (.tooManyDigits (limit.getD 0) count)
  | .error (.loneSurrogate left) => .error (.loneSurrogate (lineAt cs left))

end SharpEmit.Json
