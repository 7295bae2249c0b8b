/-
SharpEmit/Json/Basic.lean

JSON values.  The members of an object keep the order in which they were
written; integers have any size and are told apart from other numbers.
-/
import SharpEmit.Decimal.Binary64

namespace SharpEmit

/-- A JSON value. -/
inductive Json where
  | null
  | bool (b : Bool)
  | int (i : Int)
  | real (x : Decimal.Binary64)
  | str (s : String)
  | arr (items : List Json)
  | obj (members : List (String × Json))
deriving BEq, Repr, Inhabited

namespace Json

/-! ### Objects -/

/-- The value of a key among members. -/
def lookup (key : String) (members : List (String × Json)) : Option Json :=
  List.lookup key members

/-- Members with one more: a key that is already there keeps its place and takes
the new value. -/
def putMember (members : List (String × Json)) (key : String) (value : Json) :
    List (String × Json) :=
  if members.any (·.1 = key) then
    members.map fun m => if m.1 = key then (key, value) else m
  else members ++ [(key, value)]

/-- The value under a key of an object. -/
def get? (key : String) : Json → Option Json
  | .obj members => lookup key members
  | _ => none

/-! ### Readings -/

/-- Whether a value counts as set: null, false, zeros and everything empty do
not. -/
def isSet : Json → Bool
  | .null => false
  | .bool b => b
  | .int i => i != 0
  | .real x => !x.isZero
  | .str s => s != ""
  | .arr items => !items.isEmpty
  | .obj members => !members.isEmpty

/-- The kinds of value that hold no items. -/
inductive Scalar where
  | null
  | bool
  | int
  | real
deriving DecidableEq, Repr

/-- What a walk over a value meets: the items of a list, the characters of a
text, the keys of an object. -/
def items : Json → Except Scalar (List Json)
  | .null => .error .null
  | .bool _ => .error .bool
  | .int _ => .error .int
  | .real _ => .error .real
  | .str s => .ok (s.toList.map fun c => .str (String.singleton c))
  | .arr items => .ok items
  | .obj members => .ok (members.map fun m => .str m.1)

end Json

end SharpEmit
