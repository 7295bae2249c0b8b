/-
SharpEmit/Document/Pointer.lean

Places in a JSON document, such as `$.types[0].name`: the steps from the whole
document down to a value.
-/
import SharpEmit.Json.Basic

namespace SharpEmit.Document

/-- One step down into a value. -/
inductive Step where
  | key (name : String)
  | index (i : Nat)
deriving DecidableEq, Repr

/-- A place in a document: the steps that lead to it, the first one first. -/
structure Pointer where
  steps : List Step := []
deriving DecidableEq, Repr

namespace Pointer

/-- The whole document. -/
def root : Pointer := {}

/-- The place under a key. -/
def key (p : Pointer) (name : String) : Pointer := ⟨p.steps ++ [.key name]⟩

/-- The place at an index. -/
def index (p : Pointer) (i : Nat) : Pointer := ⟨p.steps ++ [.index i]⟩

end Pointer

/-- A step as text. -/
def Step.text : Step → String
  | .key name => "." ++ name
  | .index i => "[" ++ toString i ++ "]"

/-- A place as text. -/
def Pointer.text (p : Pointer) : String := "$" ++ String.join (p.steps.map Step.text)

/-- One step down from a value, if it has the key or is long enough. -/
def Step.get? : Step → Json → Option Json
  | .key name, value => value.get? name
  | .index i, .arr items => items[i]?
  | .index _, _ => none

/-- The value at a place of a document. -/
def Pointer.get? (p : Pointer) (document : Json) : Option Json :=
  p.steps.foldlM (fun value step => step.get? value) document

end SharpEmit.Document
