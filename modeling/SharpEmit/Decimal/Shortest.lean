/-
SharpEmit/Decimal/Shortest.lean

The shortest decimal that reads back as a given double-precision number, and
how such a decimal is laid out.  For one digit, two digits and so on the two
decimals on either side of the number are tried; the first length at which one
of them reads back wins, the nearer of two, an even last digit on a tie.
-/
import SharpEmit.Decimal.Binary64

namespace SharpEmit.Decimal

/-! ### Shortest digits -/

/-- The `d` with `10 ^ (d - 1) ≤ num / den < 10 ^ d`. -/
def decimalMagnitude (num den : Nat) : Int :=
  if den ≤ num then (Nat.toDigits 10 (num / den)).length
  else 1 - (Nat.toDigits 10 ((den - 1) / num)).length

/-- The decimal of `n` digits that reads back as `mantissa * 2 ^ exponent`, as
digits and a power of ten, if there is one. -/
def decimalOfLength? (mantissa : Nat) (exponent : Int) (n : Nat) : Option (Nat × Int) :=
  let (num, den) := shift 2 (-exponent) mantissa 1
  let e := decimalMagnitude num den - n
  let (num, den) := shift 10 e num den
  let below := num / den
  let twice := 2 * (num % den)
  let readsBack := fun c => Binary64.ofDecimal false c e = .finite false mantissa exponent
  let preferAbove := den < twice ∨ (twice = den ∧ below % 2 = 1)
  let (first, second) := if preferAbove then (below + 1, below) else (below, below + 1)
  if readsBack first then some (first, e)
  else if readsBack second then some (second, e)
  else none

/-- The shortest decimal that reads back; seventeen digits always do. -/
def shortest (mantissa : Nat) (exponent : Int) : Nat × Int :=
  ((List.range 17).findSome? fun k => decimalOfLength? mantissa exponent (k + 1)).getD (0, 0)

/-! ### Layout -/

/-- How a decimal is written: positionally while its exponent is at least
`fixedFrom` and less than `fixedBelow`, with an exponent of at least
`exponentWidth` digits otherwise; and the texts of what is not finite. -/
structure NumberStyle where
  fixedFrom : Int
  fixedBelow : Int
  exponentWidth : Nat
  infinity : String
  nan : String

/-- Digits without the zeros at their end. -/
def significant (ds : List Char) : List Char :=
  (ds.reverse.dropWhile (· = '0')).reverse

/-- The decimal whose first digit has weight `10 ^ x`, written positionally. -/
def positional (ds : List Char) (x : Int) : List Char :=
  if 0 ≤ x then
    let whole := ds.take (x.toNat + 1)
    let fraction := ds.drop (x.toNat + 1)
    whole ++ List.replicate (x.toNat + 1 - whole.length) '0' ++ '.' ::
      (if fraction = [] then ['0'] else fraction)
  else
    '0' :: '.' :: List.replicate ((-x).toNat - 1) '0' ++ ds

/-- The decimal whose first digit has weight `10 ^ x`, written with an exponent. -/
def scientific (width : Nat) (ds : List Char) (x : Int) : List Char :=
  let exponent := Nat.toDigits 10 x.natAbs
  let fraction := ds.drop 1
  ds.take 1 ++ (if fraction = [] then [] else '.' :: fraction) ++
    'e' :: (if x < 0 then '-' else '+') ::
      List.replicate (width - exponent.length) '0' ++ exponent

/-- A number in a style. -/
def NumberStyle.show (style : NumberStyle) : Binary64 → String
  | .nan => style.nan
  | .infinite negative => (if negative then "-" else "") ++ style.infinity
  | .finite negative mantissa exponent =>
    let (digits, e) := if mantissa = 0 then (0, 0) else shortest mantissa exponent
    let all := Nat.toDigits 10 digits
    let x := all.length - 1 + e
    let ds := if digits = 0 then ['0'] else significant all
    let body :=
      if style.fixedFrom ≤ x ∧ x < style.fixedBelow then positional ds x
      else scientific style.exponentWidth ds x
    (if negative then "-" else "") ++ String.ofList body

end SharpEmit.Decimal
