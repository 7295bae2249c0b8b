/-
SharpEmit/CSharp/Naming.lean

Names in C#: identifiers, of which keywords are escaped by `@`, accessor
methods, namespaces and types.
-/
import SharpEmit.Model.Declaration
import SharpEmit.Text.UpperCase

namespace SharpEmit.CSharp

/-! ### Identifiers -/

/-- The reserved words. -/
def keywords : List String :=
  ["abstract", "as", "base", "bool", "break", "byte", "case", "catch", "char", "checked",
    "class", "const", "continue", "decimal", "default", "delegate", "do", "double", "else",
    "enum", "event", "explicit", "extern", "false", "finally", "fixed", "float", "for",
    "foreach", "goto", "if", "implicit", "in", "int", "interface", "internal", "is", "lock",
    "long", "namespace", "new", "null", "object", "operator", "out", "override", "params",
    "private", "protected", "public", "readonly", "ref", "return", "sbyte", "sealed", "short",
    "sizeof", "stackalloc", "static", "string", "struct", "switch", "this", "throw", "true",
    "try", "typeof", "uint", "ulong", "unchecked", "unsafe", "ushort", "using", "virtual",
    "void", "volatile", "while"]

/-- A name as an identifier: a reserved word is marked as a plain name. -/
def identifier (name : String) : String :=
  if name ∈ keywords then "@" ++ name else name

/-! ### Conventions -/

/-- The conventions that a user may choose. -/
structure Naming where
  getterPrefix : String := "get"
  setterPrefix : String := "set"
  defaultNamespace : String := "Global"
deriving DecidableEq, Repr

/-- The method that stands for an accessor of a name; without a leading word the
name itself. -/
def accessorName (lead name : String) : String :=
  if lead = "" then name else lead ++ Text.capitalize name

/-- The method that reads a property. -/
def Naming.getter (n : Naming) (name : String) : String := accessorName n.getterPrefix name

/-- The method that sets a property. -/
def Naming.setter (n : Naming) (name : String) : String := accessorName n.setterPrefix name

/-- The namespace of a package. -/
def Naming.namespaceOf (n : Naming) (package : List String) : String :=
  if package = [] then n.defaultNamespace else Text.dotted (package.map identifier)

/-! ### Types -/

/-- The types that both languages have, under the names of each. -/
def builtinTypes : List (String × String) :=
  [("int", "int"), ("uint", "uint"), ("Number", "float"), ("Boolean", "bool"), ("void", "void"),
    ("*", "Object"), ("Object", "Object")]

/-- The name of a type without its arguments: built-in types have no package. -/
def typeHead (name : String) (package : List String) : String :=
  match (if package = [] then builtinTypes.lookup name else none) with
  | some builtin => builtin
  | none => identifier name

mutual

/-- A type in C#; a missing one is no value. -/
def typeName : TypeRef → String
  | ⟨name, package, args, kind⟩ =>
    if kind = .void ∨ kind = .absent then "void"
    else if args.isEmpty then typeHead name package
    else typeHead name package ++ "<" ++ ", ".intercalate (typeNames args) ++ ">"

/-- Types in C#, one by one. -/
def typeNames : List TypeRef → List String
  | [] => []
  | t :: ts => typeName t :: typeNames ts

end

/-- A type in C#; a missing one is no value. -/
def optionalTypeName : Option TypeRef → String
  | none => "void"
  | some t => typeName t

end SharpEmit.CSharp
