/-
SharpEmit/Model/Declaration.lean

The declarations that are converted: classes and interfaces of ActionScript
with their fields, functions and function types, every name resolved.
-/
import SharpEmit.Model.TypeRef

namespace SharpEmit

/-! ### Members -/

/-- Who may use a member. -/
inductive Visibility where
  | pub
  | prot
  | priv
  | intern
deriving DecidableEq, Repr

/-- The word for a visibility, the same in both languages. -/
def Visibility.word : Visibility → String
  | .pub => "public"
  | .prot => "protected"
  | .priv => "private"
  | .intern => "internal"

/-- The visibility that a word stands for. -/
def Visibility.ofWord? : String → Option Visibility
  | "public" => some .pub
  | "protected" => some .prot
  | "private" => some .priv
  | "internal" => some .intern
  | _ => none

/-- A parameter of a function. -/
structure Param where
  name : String := ""
  type : Option TypeRef := none
deriving DecidableEq, Repr

/-- A field of a class. -/
structure Field where
  name : String := ""
  type : Option TypeRef := none
  visibility : Visibility := .pub
  isConst : Bool := false
  isStatic : Bool := false
  initializer : Option String := none
deriving DecidableEq, Repr

/-- The constructor that a constructor calls first. -/
inductive ChainKind where
  | sameClass
  | baseClass
deriving DecidableEq, Repr

/-- A constructor's call of another one, before its own body. -/
structure Chain where
  kind : ChainKind := .baseClass
  args : List String := []
deriving DecidableEq, Repr

/-- A type that stands for a value: neither missing nor `void`. -/
def returnsValue : Option TypeRef → Bool
  | none => false
  | some t => t.kind ≠ .void

/-- A method, an accessor or a constructor. -/
structure Function where
  name : String := ""
  visibility : Visibility := .pub
  returnType : Option TypeRef := none
  params : List Param := []
  body : List String := []
  isConstructor : Bool := false
  isStatic : Bool := false
  isOverride : Bool := false
  isGetter : Bool := false
  isSetter : Bool := false
  chain : Option Chain := none
deriving DecidableEq, Repr

/-- A named function type. -/
structure Alias where
  name : String := ""
  returnType : Option TypeRef := none
  params : List Param := []
deriving DecidableEq, Repr

/-! ### Declarations -/

/-- What only a class has. -/
structure ClassPart where
  fields : List Field := []
  isFinal : Bool := false
  base : Option TypeRef := none
  interfaces : List TypeRef := []
deriving DecidableEq, Repr

/-- A class or an interface. -/
inductive Shape where
  | classShape (part : ClassPart)
  | interfaceShape
deriving DecidableEq, Repr

/-- The types that a class names itself: its base, its interfaces and the types
of its fields. -/
def Shape.types : Shape → List TypeRef
  | .classShape part => part.base.toList ++ part.interfaces ++ part.fields.filterMap (·.type)
  | .interfaceShape => []

/-- A declared type. -/
structure Declaration where
  name : String := ""
  package : List String := []
  tags : List String := []
  aliases : List Alias := []
  functions : List Function := []
  shape : Shape := .classShape {}
deriving DecidableEq, Repr

namespace Declaration

/-- The tag of a type that is never converted. -/
def neverTag : String := "NoConversion"

/-- The tag of a type that is converted only while it has no file. -/
def onceTag : String := "ConvertOnce"

/-- The constructors among the functions, in order. -/
def constructors (d : Declaration) : List Function := d.functions.filter (·.isConstructor)

/-! ### Mentioned types -/

/-- The types of parameters, the untyped ones left out. -/
def paramTypes (params : List Param) : List TypeRef := params.filterMap (·.type)

/-- The types named in the signatures of a declaration, in order. -/
def signatureTypes (d : Declaration) : List TypeRef :=
  d.aliases.flatMap (fun a => a.returnType.toList ++ paramTypes a.params) ++
    d.shape.types ++
    d.functions.flatMap (fun f => f.returnType.toList ++ paramTypes f.params)

/-- Every type reference in the signatures of a declaration, those among type
arguments included. -/
def references (d : Declaration) : List TypeRef := TypeRef.withArgs d.signatureTypes

/-- A reference is missing in a list of references. -/
def lacksReference (d : Declaration) : Bool := d.references.any (·.kind = .absent)

end Declaration

end SharpEmit
