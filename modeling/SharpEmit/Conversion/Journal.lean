/-
SharpEmit/Conversion/Journal.lean

What conversions tell while they run.
-/
import SharpEmit.Conversion.Error

namespace SharpEmit.Conversion

/-- How much an entry matters. -/
inductive Level where
  | debug
  | info
  | error
deriving DecidableEq, Repr

/-- The word for a level. -/
def Level.word : Level → String
  | .debug => "DEBUG"
  | .info => "INFO"
  | .error => "ERROR"

/-- What a journal records. -/
inductive Event where
  | neverConverted (name : String)
  | kept (name path : String)
  | wrote (path : String)
  | failed (failure : Failure)
deriving DecidableEq, Repr

/-- The level of an event. -/
def Event.level : Event → Level
  | .neverConverted _ => .info
  | .kept _ _ => .info
  | .wrote _ => .debug
  | .failed _ => .error

/-- The event in words. -/
def Event.text : Event → String
  | .neverConverted name => "No conversion: " ++ name
  | .kept name path => "Convert once: " ++ name ++ " (keeping " ++ path ++ ")"
  | .wrote path => "Wrote " ++ path
  | .failed failure => failure.message

/-- The event as a line of a journal. -/
def Event.line (e : Event) : String := e.level.word ++ ": " ++ e.text

end SharpEmit.Conversion
