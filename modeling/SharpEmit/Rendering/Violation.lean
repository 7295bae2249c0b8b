/-
SharpEmit/Rendering/Violation.lean

Why a declaration cannot be rendered: an expectation on declarations that it
violates, or a renderer that breaks down.
-/
import SharpEmit.LineBuffer
import SharpEmit.Model.Declaration
import SharpEmit.Text.Quoted

namespace SharpEmit

/-! ### Violations -/

/-- The name of the method that runs deferred initializers, which no member may
have. -/
def initializerName : String := "__internalInitializeFields"

/-- An expectation that a declaration violates. -/
inductive Violation where
  | repeatedInterface (interface : TypeRef)
  | untypedField (field : String)
  | untypedParam (function param : String)
  | reservedName
  | noConstructor (deferred : List String)
  | constWithoutValue (field : String)
  | constructorReturns (function : String)
  | constructorIsAccessor (function : String)
deriving DecidableEq, Repr

/-- The member of the declaration that a violation is about. -/
def Violation.member : Violation → Option String
  | .repeatedInterface _ => none
  | .untypedField field => some field
  | .untypedParam function _ => some function
  | .reservedName => some initializerName
  | .noConstructor _ => none
  | .constWithoutValue field => some field
  | .constructorReturns function => some function
  | .constructorIsAccessor function => some function

/-- The violation in words. -/
def Violation.text : Violation → String
  | .repeatedInterface interface => "interface " ++ interface.qualifiedName ++ " implemented twice"
  | .untypedField _ => "field has no type"
  | .untypedParam _ param => "parameter '" ++ param ++ "' has no type"
  | .reservedName => "'" ++ initializerName ++ "' is reserved"
  | .noConstructor deferred =>
    "fields with deferred initializers need a declared constructor (" ++
      ", ".intercalate deferred ++ ")"
  | .constWithoutValue _ => "const field needs an initializer"
  | .constructorReturns _ => "constructor declares a return type"
  | .constructorIsAccessor _ => "constructor flagged as accessor"

/-! ### Breakdowns -/

/-- A fault of the renderer itself. -/
inductive Breakdown where
  | absentReference
  | missingKey (key : String)
  | badValue (text : String)
  | badType (text : String)
  | misuse (fault : LineBuffer.Misuse)
deriving DecidableEq, Repr

/-- What is said of a missing reference in a list. -/
def absentReferenceText : String := "'NoneType' object has no attribute 'args'"

/-- The breakdown in words, its kind first. -/
def Breakdown.text : Breakdown → String
  | .absentReference => "AttributeError: " ++ absentReferenceText
  | .missingKey key => "KeyError: " ++ Text.quoted key
  | .badValue text => "ValueError: " ++ text
  | .badType text => "TypeError: " ++ text
  | .misuse fault => "RuntimeError: " ++ fault.message

/-- Why there is no rendered text. -/
inductive RenderError where
  | violation (v : Violation)
  | breakdown (b : Breakdown)
deriving DecidableEq, Repr

end SharpEmit
