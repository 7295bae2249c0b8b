/-
SharpEmit/CSharp/Emission.lean

Writing a declaration as a C# file: the namespaces it uses, its own namespace
as a block, in it the function types as delegates and then the class or the
interface.  Emission writes into a line buffer and stops at the first
expectation that the declaration violates.
-/
import SharpEmit.CSharp.Signature

namespace SharpEmit.CSharp

/-- A step of emission: it changes the buffer or stops. -/
abbrev Emission := StateT LineBuffer (Except RenderError)

/-! ### Steps -/

/-- Writes a line. -/
def line (text : String) : Emission Unit := modify (·.writeln text)

/-- Opens a block. -/
def openBlock : Emission Unit := modify (·.openBlock)

/-- Closes a block. -/
def closeBlock : Emission Unit := do
  match (← get).closeBlock with
  | .ok b => set b
  | .error misuse => throw (.breakdown (.misuse misuse))

/-- Stops if there is a violation. -/
def demand : Option Violation → Emission Unit
  | none => pure ()
  | some v => throw (.violation v)

/-! ### Expectations -/

/-- The first interface that has occurred before. -/
def repeated? (seen : List TypeRef) : List TypeRef → Option TypeRef
  | [] => none
  | t :: rest => if t ∈ seen then some t else repeated? (t :: seen) rest

/-- No interface is implemented twice. -/
def repeatedInterface? (interfaces : List TypeRef) : Option Violation :=
  (repeated? [] interfaces).map .repeatedInterface

/-- Every field has a type. -/
def untypedField? (fields : List Field) : Option Violation :=
  (fields.find? (·.type.isNone)).map fun f => .untypedField f.name

/-- Every parameter has a type. -/
def untypedParam? (functions : List Function) : Option Violation :=
  functions.findSome? fun f =>
    (f.params.find? (·.type.isNone)).map fun p => .untypedParam f.name p.name

/-- No member has the name of the initializer method. -/
def reservedMember? (fields : List Field) (functions : List Function) : Option Violation :=
  if initializerName ∈ fields.map (·.name) ++ functions.map (·.name) then some .reservedName
  else none

/-- Deferred initializers have a constructor to run them. -/
def missingConstructor? (deferred : List Field) (constructors : List Function) :
    Option Violation :=
  if !deferred.isEmpty && constructors.isEmpty then some (.noConstructor (deferred.map (·.name)))
  else none

/-- A constant has a value. -/
def valuelessConst? (f : Field) : Option Violation :=
  if storage f = "const" ∧ f.initializer.isNone then some (.constWithoutValue f.name) else none

/-- A constructor returns no value and is no accessor. -/
def badConstructor? (f : Function) : Option Violation :=
  if returnsValue f.returnType then some (.constructorReturns f.name)
  else if f.isGetter || f.isSetter then some (.constructorIsAccessor f.name)
  else none

/-! ### Lines -/

/-- The import of a namespace. -/
def importLine (name : String) : String := "using " ++ name ++ ";"

/-- A function type. -/
def delegateLine (a : Alias) : String :=
  "public delegate " ++ returnText a.returnType ++ " " ++ identifier a.name ++
    "(" ++ paramsText a.params ++ ");"

/-- The head of an interface. -/
def interfaceHead (d : Declaration) : String := "public interface " ++ identifier d.name

/-- A function of an interface. -/
def signatureLine (n : Naming) (f : Function) : String :=
  optionalTypeName f.returnType ++ " " ++ functionName n f ++ "(" ++ paramsText f.params ++ ");"

/-- The head of a class. -/
def classHead (d : Declaration) (part : ClassPart) : String :=
  "public " ++ (if part.isFinal then "sealed " else "") ++ "class " ++ identifier d.name ++
    inheritance part

/-- A field, with its initializer if that stays on the line. -/
def fieldLine (f : Field) : String :=
  let value := if isInline f then " = " ++ f.initializer.getD "" else ""
  let qualifier := if storage f = "" then "" else storage f ++ " "
  f.visibility.word ++ " " ++ qualifier ++ optionalTypeName f.type ++ " " ++ identifier f.name ++
    value ++ ";"

/-- The head of the method that runs deferred initializers. -/
def initializerHead : String := "private void " ++ initializerName ++ "()"

/-- The assignment of a deferred initializer. -/
def assignmentLine (f : Field) : String :=
  identifier f.name ++ " = " ++ f.initializer.getD "" ++ ";"

/-- The head of a method. -/
def methodHead (n : Naming) (isFinal : Bool) (f : Function) : String :=
  let modifier := functionModifier isFinal f
  let modifier := if modifier = "" then "" else modifier ++ " "
  f.visibility.word ++ " " ++ modifier ++ returnText f.returnType ++ " " ++ functionName n f ++
    "(" ++ paramsText f.params ++ ")"

/-- The head of a constructor. -/
def constructorHead (d : Declaration) (f : Function) : String :=
  f.visibility.word ++ " " ++ identifier d.name ++ "(" ++ paramsText f.params ++ ")" ++
    chainText f.chain

/-! ### Emission -/

/-- Writes a head and a block of lines. -/
def emitBody (head : String) (body : List String) : Emission Unit := do
  line head
  openBlock
  body.forM line
  closeBlock

/-- Writes a field. -/
def emitField (f : Field) : Emission Unit := do
  demand (valuelessConst? f)
  line (fieldLine f)

/-- Writes a function of a class. -/
def emitFunction (n : Naming) (d : Declaration) (isFinal needsInitializer : Bool)
    (f : Function) : Emission Unit := do
  if f.isConstructor then
    demand (badConstructor? f)
    emitBody (constructorHead d f) (constructorBody f needsInitializer)
  else
    emitBody (methodHead n isFinal f) f.body

/-- Writes an interface: signatures only, constructors left out. -/
def emitInterface (n : Naming) (d : Declaration) : Emission Unit := do
  demand (untypedParam? d.functions)
  emitBody (interfaceHead d) ((d.functions.filter (!·.isConstructor)).map (signatureLine n))

/-- Writes a class: fields, the initializer method if it is needed, functions. -/
def emitClass (n : Naming) (d : Declaration) (part : ClassPart) : Emission Unit := do
  demand (repeatedInterface? part.interfaces)
  demand (untypedField? part.fields)
  demand (untypedParam? d.functions)
  demand (reservedMember? part.fields d.functions)
  line (classHead d part)
  openBlock
  let deferred := deferredFields part.fields
  demand (missingConstructor? deferred d.constructors)
  part.fields.forM emitField
  if !deferred.isEmpty then
    emitBody initializerHead (deferred.map assignmentLine)
  d.functions.forM (emitFunction n d part.isFinal !deferred.isEmpty)
  closeBlock

/-- Stops if a reference is missing. -/
def demandReferences (d : Declaration) : Emission Unit :=
  if d.lacksReference then throw (.breakdown .absentReference) else pure ()

/-- Writes a declaration. -/
def emit (n : Naming) (d : Declaration) : Emission Unit := do
  line (importLine defaultImport)
  line ""
  demandReferences d
  ((imports n d).filter (· ≠ defaultImport)).forM fun name => line (importLine name)
  line ""
  line ("namespace " ++ n.namespaceOf d.package)
  openBlock
  d.aliases.forM fun a => line (delegateLine a)
  match d.shape with
  | .interfaceShape => emitInterface n d
  | .classShape part => emitClass n d part
  closeBlock

/-- A declaration as C# text. -/
def render (n : Naming) (d : Declaration) : Except RenderError LineBuffer := do
  let (_, b) ← (emit n d).run {}
  pure b

end SharpEmit.CSharp
