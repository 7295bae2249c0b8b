/-
SharpEmit/Json/Display.lean

JSON values as messages show them: texts in quotes, numbers with the fewest
digits that read back, lists in brackets and objects in braces.  A text that is
the whole value is shown without quotes.
-/
import SharpEmit.Decimal.Shortest
import SharpEmit.Json.Basic
import SharpEmit.Text.Quoted

namespace SharpEmit.Json

/-! ### Shown values -/

/-- Numbers are positional from `0.0001` up to sixteen digits before the point,
and an exponent has a sign and two digits at least. -/
def shownReal : Decimal.NumberStyle :=
  { fixedFrom := -4, fixedBelow := 16, exponentWidth := 2, infinity := "inf", nan := "nan" }

mutual

/-- A value inside another one. -/
def shown : Json → String
  | .null => "None"
  | .bool b => if b then "True" else "False"
  | .int i => toString i
  | .real x => shownReal.show x
  | .str s => Text.quoted s
  | .arr items => "[" ++ ", ".intercalate (shownItems items) ++ "]"
  | .obj members => "\x7b" ++ ", ".intercalate (shownMembers members) ++ "\x7d"

/-- The items of a list, one by one. -/
def shownItems : List Json → List String
  | [] => []
  | item :: rest => shown item :: shownItems rest

/-- The members of an object, one by one. -/
def shownMembers : List (String × Json) → List String
  | [] => []
  | (key, value) :: rest => (Text.quoted key ++ ": " ++ shown value) :: shownMembers rest

end

/-- A value on its own. -/
def display : Json → String
  | .str s => s
  | value => shown value

end SharpEmit.Json
