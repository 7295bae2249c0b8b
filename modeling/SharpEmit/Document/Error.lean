/-
SharpEmit/Document/Error.lean

Why a document of declarations is refused.  Most refusals name a test and the
place of the value that fails it; a few arise before there is a value to point
at.
-/
import SharpEmit.Document.Pointer
import SharpEmit.Json.Display
import SharpEmit.Json.Reader
import SharpEmit.Text.Utf8

namespace SharpEmit.Document

/-! ### Refusals -/

/-- A test that a value of the document fails. -/
inductive Problem where
  | notDocument
  | notObject
  | notList
  | notString
  | notName
  | notType
  | notPackage
  | unknownKind (value : Json)
  | unknownVisibility (value : Json)
  | unknownChain (value : Json)
  | malformed (problem : Json.Problem) (line : Nat)

/-- Why a document could not be loaded. -/
inductive LoadError where
  | rejected (problem : Problem) (place : Pointer)
  | notIterable (scalar : Json.Scalar)
  | tooManyDigits (limit count : Nat)
  | loneSurrogate (line : Nat)
  | notUtf8 (fault : Text.Utf8.Fault)

/-! ### Wording -/

/-- The problem in words. -/
def Problem.text : Problem → String
  | .notDocument => "expected an object with a 'types' list"
  | .notObject => "expected an object"
  | .notList => "expected a list"
  | .notString => "expected a string"
  | .notName => "expected a non-empty string"
  | .notType => "expected a type name or type object"
  | .notPackage => "expected a dotted package name or list of segments"
  | .unknownKind value => "unknown declaration kind '" ++ value.display ++ "'"
  | .unknownVisibility value => "unknown visibility '" ++ value.display ++ "'"
  | .unknownChain value => "unknown delegation kind '" ++ value.display ++ "'"
  | .malformed problem line => "invalid JSON: " ++ problem.text ++ " (line " ++ toString line ++ ")"

/-- The word for a kind of value. -/
def scalarWord : Json.Scalar → String
  | .null => "NoneType"
  | .bool => "bool"
  | .int => "int"
  | .real => "float"

/-- A text with the place that it is about. -/
def located (text place : String) : String := text ++ " at " ++ place

/-- The refusal in words. -/
def LoadError.message : LoadError → String
  | .rejected problem place => located problem.text place.text
  | .notIterable scalar => "'" ++ scalarWord scalar ++ "' object is not iterable"
  | .tooManyDigits limit count =>
    "Exceeds the limit (" ++ toString limit ++ " digits) for integer string conversion: value has " ++
      toString count ++ " digits; use sys.set_int_max_str_digits() to increase the limit"
  | .loneSurrogate line => "half a surrogate pair on its own (line " ++ toString line ++ ")"
  | .notUtf8 fault => fault.message

end SharpEmit.Document
