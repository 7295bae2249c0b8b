/-
SharpEmit/Document/Reader.lean

Loading declarations from a JSON document.  A document is an object with a list
`types`; each element describes one class or interface.  Type references are
dotted strings or objects with `name`, `package` and `args`; a name without a
package that one of the element's own function types declares refers to that
function type, wherever it stands in the element.

Readers go through an element in a fixed order and stop at the first value that
fails its test.
-/
import SharpEmit.Document.Error
import SharpEmit.Model.Declaration
import SharpEmit.Text.Blank

namespace SharpEmit.Document

/-- What a reader returns. -/
abbrev Loaded (α : Type) := Except LoadError α

/-- The members of an object. -/
abbrev Members := List (String × Json)

/-- The value under a key, or what stands for it when the key is missing. -/
def Members.getD (members : Members) (key : String) (default : Json) : Json :=
  (Json.lookup key members).getD default

/-- Refuses the value at a place. -/
def reject {α : Type} (problem : Problem) (place : Pointer) : Loaded α :=
  .error (.rejected problem place)

/-! ### Simple values -/

/-- An object. -/
def objectAt (place : Pointer) : Json → Loaded Members
  | .obj members => .ok members
  | _ => reject .notObject place

/-- A list. -/
def listAt (place : Pointer) : Json → Loaded (List Json)
  | .arr items => .ok items
  | _ => reject .notList place

/-- A text. -/
def stringAt (place : Pointer) : Json → Loaded String
  | .str s => .ok s
  | _ => reject .notString place

/-- A text that is not empty. -/
def nameAt (place : Pointer) : Json → Loaded String
  | .str s => if s = "" then reject .notName place else .ok s
  | _ => reject .notName place

/-- A text or nothing. -/
def optionalStringAt (place : Pointer) : Json → Loaded (Option String)
  | .null => .ok none
  | value => some <$> stringAt place value

/-- Reads each item of a list, the first one at index `i`. -/
def eachFrom {α : Type} (read : Pointer → Json → Loaded α) (place : Pointer) (i : Nat) :
    List Json → Loaded (List α)
  | [] => .ok []
  | item :: rest => do
    let a ← read (place.index i) item
    let as ← eachFrom read place (i + 1) rest
    pure (a :: as)

/-- Reads each item of a list. -/
def each {α : Type} (read : Pointer → Json → Loaded α) (place : Pointer) (items : List Json) :
    Loaded (List α) :=
  eachFrom read place 0 items

/-- A list of texts. -/
def stringsAt (place : Pointer) (value : Json) : Loaded (List String) := do
  each stringAt place (← listAt place value)

/-- What a walk over a value meets. -/
def itemsOf (value : Json) : Loaded (List Json) :=
  value.items.mapError .notIterable

/-- The texts in a list that holds nothing else. -/
def strings? : List Json → Option (List String)
  | [] => some []
  | .str s :: rest => (s :: ·) <$> strings? rest
  | _ :: _ => none

/-- A package: a dotted text, whose empty segments do not count, or a list of
segments. -/
def packageAt (place : Pointer) : Json → Loaded (List String)
  | .str s => .ok ((Text.segments s).filter (· ≠ ""))
  | .arr items =>
    match strings? items with
    | some parts => .ok parts
    | none => reject .notPackage place
  | _ => reject .notPackage place

/-! ### Types -/

/-- The names of the primitive types. -/
def primitiveNames : List String := ["int", "uint", "Number", "Boolean"]

/-- What a name refers to, given the function types declared beside it. -/
def kindOf (scope : List String) (name : String) (package : List String) : TypeKind :=
  if package ≠ [] then .classType
  else if name = "void" then .void
  else if name ∈ primitiveNames then .primitive
  else if name ∈ scope then .functionType
  else .classType

/-- The reference with the given parts. -/
def resolve (scope : List String) (name : String) (package : List String)
    (args : List TypeRef) : TypeRef :=
  { name, package, args, kind := kindOf scope name package }

/-- The reference that a dotted text stands for. -/
def resolveDotted (scope : List String) (s : String) : TypeRef :=
  let (package, name) := Text.splitQualified s
  resolve scope name package []

mutual

/-- A type reference: a dotted text or a type object. -/
def typeAt (scope : List String) (place : Pointer) : Json → Loaded TypeRef
  | .str s => .ok (resolveDotted scope s)
  | .obj members => do
    let name ← nameAt (place.key "name") (Members.getD members "name" .null)
    let args ← argsAt scope (place.key "args") members
    let package ← packageAt (place.key "package") (Members.getD members "package" (.str ""))
    pure (resolve scope name package args)
  | _ => reject .notType place

/-- The type arguments among the members of a type object; none if the key is
missing. -/
def argsAt (scope : List String) (place : Pointer) : Members → Loaded (List TypeRef)
  | [] => .ok []
  | (key, value) :: rest =>
    if key = "args" then argItemsAt scope place value else argsAt scope place rest

/-- The type arguments in a value: its items, each a type. -/
def argItemsAt (scope : List String) (place : Pointer) : Json → Loaded (List TypeRef)
  | .arr items => typesFrom scope place 0 items
  | .str s => .ok (s.toList.map fun c => resolveDotted scope (String.singleton c))
  | .obj members => .ok (members.map fun m => resolveDotted scope m.1)
  | value => do
    let _ ← itemsOf value
    pure []

/-- Types in a list, the first one at index `i`. -/
def typesFrom (scope : List String) (place : Pointer) (i : Nat) :
    List Json → Loaded (List TypeRef)
  | [] => .ok []
  | item :: rest => do
    let t ← typeAt scope (place.index i) item
    let ts ← typesFrom scope place (i + 1) rest
    pure (t :: ts)

end

/-- A type that may be left out: a value that is not set stands for none. -/
def optionalTypeAt (scope : List String) (place : Pointer) (value : Json) :
    Loaded (Option TypeRef) :=
  if value.isSet then some <$> typeAt scope place value else .ok none

/-! ### Members -/

/-- A visibility. -/
def visibilityAt (place : Pointer) (value : Json) : Loaded Visibility :=
  let known :=
    match value with
    | .str s => Visibility.ofWord? s
    | _ => none
  match known with
  | some v => .ok v
  | none => reject (.unknownVisibility value) place

/-- The call of another constructor. -/
def chainAt (place : Pointer) (value : Json) : Loaded Chain := do
  let members ← objectAt place value
  let kind ←
    match members.getD "kind" .null with
    | .str "this" => pure ChainKind.sameClass
    | .str "super" => pure ChainKind.baseClass
    | other => reject (.unknownChain other) (place.key "kind")
  let args ← listAt (place.key "args") (members.getD "args" (.arr []))
  pure { kind, args := args.map Json.display }

/-- A parameter. -/
def paramAt (scope : List String) (place : Pointer) (value : Json) : Loaded Param := do
  let members ← objectAt place value
  let name ← nameAt (place.key "name") (members.getD "name" .null)
  let type ← typeAt scope (place.key "type") (members.getD "type" .null)
  pure { name, type := some type }

/-- The parameters of a function. -/
def paramsAt (scope : List String) (place : Pointer) (value : Json) : Loaded (List Param) := do
  each (paramAt scope) place (← listAt place value)

/-- A field. -/
def fieldAt (scope : List String) (place : Pointer) (value : Json) : Loaded Field := do
  let members ← objectAt place value
  let name ← nameAt (place.key "name") (members.getD "name" .null)
  let type ← typeAt scope (place.key "type") (members.getD "type" .null)
  let visibility ←
    visibilityAt (place.key "visibility") (members.getD "visibility" (.str "public"))
  let initializer ←
    optionalStringAt (place.key "initializer") (members.getD "initializer" .null)
  pure {
    name
    type := some type
    visibility
    isConst := (members.getD "const" .null).isSet
    isStatic := (members.getD "static" .null).isSet
    initializer }

/-- A function. -/
def functionAt (scope : List String) (place : Pointer) (value : Json) : Loaded Function := do
  let members ← objectAt place value
  let name ← nameAt (place.key "name") (members.getD "name" .null)
  let visibility ←
    visibilityAt (place.key "visibility") (members.getD "visibility" (.str "public"))
  let returnType ← optionalTypeAt scope (place.key "returns") (members.getD "returns" .null)
  let params ← paramsAt scope (place.key "params") (members.getD "params" (.arr []))
  let body ← stringsAt (place.key "body") (members.getD "body" (.arr []))
  let delegates := members.getD "delegates" .null
  let chain ←
    if delegates.isSet then some <$> chainAt (place.key "delegates") delegates else pure none
  pure {
    name, visibility, returnType, params, body
    isConstructor := (members.getD "constructor" .null).isSet
    isStatic := (members.getD "static" .null).isSet
    isOverride := (members.getD "override" .null).isSet
    isGetter := (members.getD "getter" .null).isSet
    isSetter := (members.getD "setter" .null).isSet
    chain }

/-- A function type. -/
def aliasAt (scope : List String) (place : Pointer) (value : Json) : Loaded Alias := do
  let members ← objectAt place value
  let name ← nameAt (place.key "name") (members.getD "name" .null)
  let returnType ← optionalTypeAt scope (place.key "returns") (members.getD "returns" .null)
  let params ← paramsAt scope (place.key "params") (members.getD "params" (.arr []))
  pure { name, returnType, params }

/-! ### Declarations -/

/-- The names that the objects among the function types declare. -/
def aliasNames (place : Pointer) : List Json → Loaded (List String)
  | [] => .ok []
  | .obj members :: rest => do
    let name ← nameAt place (Members.getD members "name" .null)
    let names ← aliasNames place rest
    pure (name :: names)
  | _ :: rest => aliasNames place rest

/-- What only a class has. -/
def classPartAt (scope : List String) (place : Pointer) (members : Members) :
    Loaded ClassPart := do
  let fields ←
    each (fieldAt scope) (place.key "fields") (← itemsOf (members.getD "fields" (.arr [])))
  let base ← optionalTypeAt scope (place.key "extends") (members.getD "extends" .null)
  let interfaces ←
    each (typeAt scope) (place.key "implements")
      (← itemsOf (members.getD "implements" (.arr [])))
  pure { fields, isFinal := (members.getD "final" .null).isSet, base, interfaces }

/-- The kind of a declaration decides what else is read of it. -/
def shapeAt (scope : List String) (place : Pointer) (members : Members) : Loaded Shape :=
  match members.getD "kind" (.str "class") with
  | .str "interface" => .ok .interfaceShape
  | .str "class" => .classShape <$> classPartAt scope place members
  | other => reject (.unknownKind other) (place.key "kind")

/-- A declaration. -/
def declarationAt (place : Pointer) (value : Json) : Loaded Declaration := do
  let members ← objectAt place value
  let name ← nameAt (place.key "name") (members.getD "name" .null)
  let functionTypes ← itemsOf (members.getD "functionTypes" (.arr []))
  let scope ← aliasNames (place.key "functionTypes") functionTypes
  let package ← packageAt (place.key "package") (members.getD "package" (.str ""))
  let tags ← stringsAt (place.key "metadata") (members.getD "metadata" (.arr []))
  let aliases ← each (aliasAt scope) (place.key "functionTypes") functionTypes
  let functions ←
    each (functionAt scope) (place.key "functions")
      (← itemsOf (members.getD "functions" (.arr [])))
  let shape ← shapeAt scope place members
  pure { name, package, tags, aliases, functions, shape }

/-- The declarations of a document. -/
def load (document : Json) : Loaded (List Declaration) :=
  match document.get? "types" with
  | some (.arr types) => each declarationAt (Pointer.root.key "types") types
  | _ => reject .notDocument .root

/-! ### Files -/

/-- The most digits that an integer in a file may have. -/
def digitLimit : Nat := 4300

/-- The JSON value in the bytes of a file: UTF-8 text, with line ends of any
kind, in which no string has half a surrogate pair on its own. -/
def ofBytes (bytes : ByteArray) : Loaded Json := do
  let text ← (Text.Utf8.decode bytes).mapError .notUtf8
  match Json.parse (some digitLimit) (Text.unifyLineEnds text) with
  | .ok value => pure value
  | .error (.malformed problem line) => reject (.malformed problem line) .root
  | .error (.tooManyDigits limit count) => .error (.tooManyDigits limit count)
  | .error (.loneSurrogate line) => .error (.loneSurrogate line)

/-- The declarations in the bytes of a file. -/
def loadBytes (bytes : ByteArray) : Loaded (List Declaration) := do
  load (← ofBytes bytes)

end SharpEmit.Document
