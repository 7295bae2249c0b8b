/-
SharpEmit/Text/Dotted.lean

Dotted names such as `flash.events.Event`: a list of segments with dots
between them.
-/

namespace SharpEmit.Text

/-! ### Segments -/

/-- The segments of a text between its dots; a text without dots is its only
segment. -/
def segments (s : String) : List String :=
  (s.toList.splitOn '.').map String.ofList

/-- Segments with dots between them. -/
def dotted (parts : List String) : String := ".".intercalate parts

/-- The part of a dotted name before its last dot, in segments, and the part
after it. -/
def splitQualified (s : String) : List String × String :=
  let parts := segments s
  (parts.dropLast, parts.getLastD "")

end SharpEmit.Text
