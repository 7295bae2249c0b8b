/-
SharpEmit/Text/Blank.lean

White space of all scripts (Unicode 14, with the four information separators),
and a text without the white space around it.
-/

namespace SharpEmit.Text

/-! ### White space -/

/-- First and last code point of each run of white space. -/
def blankRanges : List (Nat × Nat) :=
  [(0x9, 0xd), (0x1c, 0x20), (0x85, 0x85), (0xa0, 0xa0), (0x1680, 0x1680), (0x2000, 0x200a),
    (0x2028, 0x2029), (0x202f, 0x202f), (0x205f, 0x205f), (0x3000, 0x3000)]

/-- White space: a member of one of the ranges. -/
def isBlank (c : Char) : Bool :=
  blankRanges.any fun r => r.1 ≤ c.toNat && c.toNat ≤ r.2

/-- The six characters of ASCII white space. -/
def isAsciiBlank (c : Char) : Bool :=
  (0x9 ≤ c.toNat && c.toNat ≤ 0xd) || c == ' '

/-! ### Trimming -/

/-- Drops the characters that satisfy `p` at both ends. -/
def trimBy (p : Char → Bool) (cs : List Char) : List Char :=
  ((cs.dropWhile p).reverse.dropWhile p).reverse

/-- Drops the white space at both ends. -/
def trim (cs : List Char) : List Char := trimBy isBlank cs

/-! ### Line ends -/

/-- Every line end, `\r\n` or `\r` alone, as `\n`. -/
def unifyLineEnds : List Char → List Char
  | [] => []
  | '\r' :: '\n' :: rest => '\n' :: unifyLineEnds rest
  | '\r' :: rest => '\n' :: unifyLineEnds rest
  | c :: rest => c :: unifyLineEnds rest

end SharpEmit.Text
