/-
SharpEmit/Decimal/Binary64.lean

Double-precision numbers as exact integers: a finite number is a mantissa times
a power of two, and reading a decimal is rounding a quotient of two integers to
the nearest such product, ties to the even mantissa.
-/

namespace SharpEmit.Decimal

/-- A double-precision number; a finite one is `± mantissa * 2 ^ exponent`. -/
inductive Binary64 where
  | nan
  | infinite (negative : Bool)
  | finite (negative : Bool) (mantissa : Nat) (exponent : Int)
deriving DecidableEq, Repr

/-! ### Quotients -/

/-- The quotient of `n` by `d` rounded to the nearest integer, ties to even. -/
def roundDiv (n d : Nat) : Nat :=
  let q := n / d
  let twice := 2 * (n % d)
  if d < twice ∨ (twice = d ∧ q % 2 = 1) then q + 1 else q

/-- The quotient `num / den * b ^ (-e)` as a pair of integers. -/
def shift (b : Nat) (e : Int) (num den : Nat) : Nat × Nat :=
  if 0 ≤ e then (num, den * Nat.pow b e.toNat) else (num * Nat.pow b (-e).toNat, den)

/-- The largest `e` with `2 ^ e ≤ num / den`. -/
def binaryMagnitude (num den : Nat) : Int :=
  let e : Int := num.log2 - den.log2
  let (n, d) := shift 2 e num den
  if d ≤ n then e else e - 1

namespace Binary64

/-! ### Rounding -/

/-- The exponent of the smallest positive number. -/
def minExponent : Int := -1074

/-- The largest exponent of a number in lowest terms. -/
def maxExponent : Int := 971

/-- Zero of either sign. -/
def zero (negative : Bool) : Binary64 := .finite negative 0 minExponent

/-- The number nearest to `num / den`; past the largest finite number, an
infinity. -/
def ofRatio (negative : Bool) (num den : Nat) : Binary64 :=
  if num = 0 then zero negative
  else
    let q := max (binaryMagnitude num den - 52) minExponent
    let (n, d) := shift 2 q num den
    let m := roundDiv n d
    let (m, q) := if m = Nat.pow 2 53 then (Nat.pow 2 52, q + 1) else (m, q)
    if maxExponent < q then .infinite negative else .finite negative m q

/-- The number nearest to `digits * 10 ^ exponent`.  Magnitudes far outside the
range are settled by the number of digits alone. -/
def ofDecimal (negative : Bool) (digits : Nat) (exponent : Int) : Binary64 :=
  let magnitude := (Nat.toDigits 10 digits).length + exponent
  if digits = 0 ∨ magnitude < -330 then zero negative
  else if 310 < magnitude then .infinite negative
  else
    let (num, den) := shift 10 (-exponent) digits 1
    ofRatio negative num den

/-- Neither zero counts as true; every other number does. -/
def isZero : Binary64 → Bool
  | .finite _ 0 _ => true
  | _ => false

end Binary64

end SharpEmit.Decimal
