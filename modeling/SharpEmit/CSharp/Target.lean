/-
SharpEmit/CSharp/Target.lean

C# as a target: one file with the extension `cs` for each type.
-/
import SharpEmit.CSharp.Emission
import SharpEmit.Rendering.Target

namespace SharpEmit.CSharp

/-- C# under the given naming conventions. -/
def target (n : Naming) : Target :=
  { render := render n, typeName := fun d => identifier d.name, extension := "cs" }

end SharpEmit.CSharp
