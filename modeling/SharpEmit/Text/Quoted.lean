/-
SharpEmit/Text/Quoted.lean

Texts in quotes, as messages show them.  Single quotes are preferred; a text
that holds a single quote and no double quote takes double quotes.  Backslash,
the quote in use and all unprintable characters are escaped, so that the quoted
text is on one line and shows every character.
-/
import SharpEmit.Text.Digit
import SharpEmit.Text.Printable

namespace SharpEmit.Text

/-! ### Quoting -/

/-- The quote that a text takes. -/
def quoteFor (cs : List Char) : Char :=
  if cs.contains '\'' && !cs.contains '"' then '"' else '\''

/-- One character inside the quotes `q`. -/
def escape (q c : Char) : List Char :=
  if c = q ∨ c = '\\' then ['\\', c]
  else if c = '\t' then ['\\', 't']
  else if c = '\n' then ['\\', 'n']
  else if c = '\r' then ['\\', 'r']
  else if isPrintable c then [c]
  else if c.toNat < 0x100 then '\\' :: 'x' :: hexDigits 2 c.toNat
  else if c.toNat < 0x10000 then '\\' :: 'u' :: hexDigits 4 c.toNat
  else '\\' :: 'U' :: hexDigits 8 c.toNat

/-- The text in quotes. -/
def quoted (s : String) : String :=
  let cs := s.toList
  let q := quoteFor cs
  String.ofList (q :: cs.flatMap (escape q) ++ [q])

end SharpEmit.Text
