/-
SharpEmit/Rendering/Target.lean

What the conversion of declarations needs of a target language: how to render a
declaration, what its type is called there, and the extension of its files.
-/
import SharpEmit.Rendering.Violation
import SharpEmit.Storage.Path

namespace SharpEmit

/-- A target language. -/
structure Target where
  render : Declaration → Except RenderError LineBuffer
  typeName : Declaration → String
  extension : String

namespace Target

/-- The file of a declaration: under the output root a directory for each part of
the package, in it a file with the name of the type. -/
def outputPath (t : Target) (root : String) (d : Declaration) : String :=
  Path.join (Path.joinAll root d.package) (t.typeName d ++ "." ++ t.extension)

/-- A target whose renderer breaks down on some declarations. -/
def breakingOn (t : Target) (fault : Declaration → Option Breakdown) : Target :=
  { t with
    render := fun d =>
      match fault d with
      | some b => .error (.breakdown b)
      | none => t.render d }

end Target

end SharpEmit
