/-
SharpEmit/Conversion/Error.lean

Failures of a conversion: the type, the step that failed and why.
-/
import SharpEmit.Rendering.Violation
import SharpEmit.Storage.Disk

namespace SharpEmit.Conversion

/-! ### Reports of failures -/

/-- The steps of a conversion that can fail. -/
inductive Step where
  | path
  | render
  | write
deriving DecidableEq, Repr

/-- The word for a step. -/
def Step.word : Step → String
  | .path => "path"
  | .render => "render"
  | .write => "write"

/-- What is to blame for a failure: the declaration, the output, or something
else. -/
inductive Blame where
  | declaration
  | output
  | other
deriving DecidableEq, Repr

/-- A failure as it is reported. -/
structure Complaint where
  blame : Blame
  typeName : String
  member : Option String
  step : Step
  text : String
deriving DecidableEq, Repr

/-- The report in one line; an empty member is left out. -/
def Complaint.message (c : Complaint) : String :=
  let member :=
    match c.member with
    | some m => if m = "" then "" else "." ++ m
    | none => ""
  c.typeName ++ member ++ ": " ++ c.step.word ++ ": " ++ c.text

/-! ### Causes -/

/-- Why a conversion failed. -/
inductive Cause where
  | unrendered (error : RenderError)
  | uncreated (directory : String) (refusal : Refusal)
  | unwritten (path : String) (refusal : Refusal)
deriving DecidableEq, Repr

/-- The failed conversion of a type. -/
structure Failure where
  typeName : String
  cause : Cause
deriving DecidableEq, Repr

/-- The report of a failure. -/
def Failure.complaint (f : Failure) : Complaint :=
  match f.cause with
  | .unrendered (.violation v) =>
    { blame := .declaration, typeName := f.typeName, member := v.member, step := .render,
      text := v.text }
  | .unrendered (.breakdown b) =>
    { blame := .other, typeName := f.typeName, member := none, step := .render, text := b.text }
  | .uncreated directory refusal =>
    { blame := .output, typeName := f.typeName, member := none, step := .path,
      text := "cannot create " ++ directory ++ ": " ++ refusal.text }
  | .unwritten path refusal =>
    { blame := .output, typeName := f.typeName, member := none, step := .write,
      text := "cannot write " ++ path ++ ": " ++ refusal.text }

/-- The failure in one line. -/
def Failure.message (f : Failure) : String := f.complaint.message

end SharpEmit.Conversion
