/-
SharpEmit/Text/Order.lean

Texts in increasing order, by code point, each once.
-/

namespace SharpEmit.Text

/-- The texts of a list in increasing order, without repeats. -/
def sortedDistinct (ss : List String) : List String :=
  (ss.mergeSort fun a b => decide (a ≤ b)).eraseDups

end SharpEmit.Text
