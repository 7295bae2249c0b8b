/-
SharpEmit/CSharp/Signature.lean

The pieces of a C# type that are decided member by member: parameter lists,
names and modifiers of functions, storage of fields, and where an initializer
runs.

An initializer stays on the line of its field when it is a plain literal, or
when the field is a constant of a primitive type.  All others are deferred to a
method that the constructors call.
-/
import SharpEmit.CSharp.Naming
import SharpEmit.Literal
import SharpEmit.Rendering.Violation
import SharpEmit.Text.Order

namespace SharpEmit.CSharp

/-! ### Functions -/

/-- A parameter. -/
def paramText (p : Param) : String := optionalTypeName p.type ++ " " ++ identifier p.name

/-- A parameter list without its parentheses. -/
def paramsText (params : List Param) : String := ", ".intercalate (params.map paramText)

/-- The type that a method returns; one that does not stand for a value is
`void`. -/
def returnText (type : Option TypeRef) : String :=
  if returnsValue type then optionalTypeName type else "void"

/-- The name of a method. -/
def functionName (n : Naming) (f : Function) : String :=
  let name := identifier f.name
  if f.isGetter then n.getter name
  else if f.isSetter then n.setter name
  else name

/-- The modifier of a function in a class that is final or not: methods are
virtual unless they are private, static, overriding or in a final class. -/
def functionModifier (isFinal : Bool) (f : Function) : String :=
  if f.isConstructor then ""
  else if f.isStatic then "static"
  else if f.isOverride then "override"
  else if f.visibility ≠ .priv ∧ !isFinal then "virtual"
  else ""

/-! ### Constructors -/

/-- The word for the constructor that is called first. -/
def chainWord : ChainKind → String
  | .sameClass => "this"
  | .baseClass => "base"

/-- The call of another constructor, after the head of a constructor. -/
def chainText : Option Chain → String
  | none => ""
  | some c => " : " ++ chainWord c.kind ++ "(" ++ ", ".intercalate c.args ++ ")"

/-- The constructor leaves deferred initializers to another one of the class. -/
def chainsToSameClass (f : Function) : Bool :=
  match f.chain with
  | some c => c.kind = .sameClass
  | none => false

/-- The body of a constructor: deferred initializers run first, unless the
constructor called before has run them. -/
def constructorBody (f : Function) (needsInitializer : Bool) : List String :=
  if needsInitializer && !chainsToSameClass f then (initializerName ++ "();") :: f.body
  else f.body

/-! ### Fields -/

/-- The field has a primitive type. -/
def isPrimitiveField (f : Field) : Bool := f.type.any (·.isPrimitive)

/-- How a field is stored: `const` for a constant of a primitive type, `static`
for other constants and for static fields, nothing for the rest. -/
def storage (f : Field) : String :=
  if f.isConst then if isPrimitiveField f then "const" else "static"
  else if f.isStatic then "static"
  else ""

/-- The initializer stays on the line of the field. -/
def isInline (f : Field) : Bool :=
  match f.initializer with
  | none => false
  | some init => (f.isConst && isPrimitiveField f) || isLiteral init

/-- The fields whose initializers are deferred, in order. -/
def deferredFields (fields : List Field) : List Field :=
  fields.filter fun f => f.initializer.isSome && !isInline f

/-! ### Types -/

/-- The base class and the interfaces, after the name of a class. -/
def inheritance (part : ClassPart) : String :=
  let bases := part.base.toList ++ part.interfaces
  if bases.isEmpty then "" else " : " ++ ", ".intercalate (bases.map typeName)

/-- The namespace that every file uses. -/
def defaultImport : String := "System"

/-- The namespaces of classes that a declaration refers to outside its own
package, in order. -/
def imports (n : Naming) (d : Declaration) : List String :=
  Text.sortedDistinct <| d.references.filterMap fun t =>
    if t.kind = .classType ∧ t.package ≠ [] ∧ t.package ≠ d.package then
      some (n.namespaceOf t.package)
    else none

end SharpEmit.CSharp
