/-
SharpEmit/Model/TypeRef.lean

References to types: a name in a package, with type arguments, and the kind of
type that it names.  Two references are equal when all four agree, at every
depth.
-/
import SharpEmit.Text.Dotted

namespace SharpEmit

/-- What a reference names; an absent one stands where a reference is missing. -/
inductive TypeKind where
  | primitive
  | classType
  | functionType
  | void
  | absent
deriving DecidableEq, Repr

/-- A reference to a type. -/
structure TypeRef where
  name : String := ""
  package : List String := []
  args : List TypeRef := []
  kind : TypeKind := .classType
deriving Repr, Inhabited

namespace TypeRef

/-! ### Equality -/

mutual

/-- Equality of references is decidable. -/
def decEq : (a b : TypeRef) → Decidable (a = b)
  | ⟨n, p, as, k⟩, ⟨n', p', as', k'⟩ =>
    if h : n = n' ∧ p = p' ∧ k = k' then
      match decEqList as as' with
      | isTrue hargs => isTrue (by obtain ⟨rfl, rfl, rfl⟩ := h; rw [hargs])
      | isFalse hargs => isFalse fun e => hargs (by injection e)
    else isFalse fun e => h (by injection e with h₁ h₂ _ h₃; exact ⟨h₁, h₂, h₃⟩)

/-- Equality of lists of references is decidable. -/
def decEqList : (as bs : List TypeRef) → Decidable (as = bs)
  | [], [] => isTrue rfl
  | [], _ :: _ => isFalse (by simp)
  | _ :: _, [] => isFalse (by simp)
  | a :: as, b :: bs =>
    match decEq a b, decEqList as bs with
    | isTrue h, isTrue hs => isTrue (by rw [h, hs])
    | isFalse h, _ => isFalse fun e => h (by injection e)
    | _, isFalse hs => isFalse fun e => hs (by injection e)

end

instance : DecidableEq TypeRef := decEq

/-! ### Names -/

/-- The reference names one of the primitive types. -/
def isPrimitive (t : TypeRef) : Bool := t.kind = .primitive

/-- The package and the name with dots between them. -/
def qualifiedName (t : TypeRef) : String := Text.dotted (t.package ++ [t.name])

/-- The class with the given dotted name. -/
def ofQualified (qualified : String) (args : List TypeRef) : TypeRef :=
  let (package, name) := Text.splitQualified qualified
  { name, package, args }

/-- What stands in the place of a missing reference. -/
def absent : TypeRef := { kind := .absent }

/-- The primitive type with the given name. -/
def ofPrimitive (name : String) : TypeRef := { name, kind := .primitive }

/-! ### Size -/

mutual

/-- The number of references in a reference, itself included. -/
def size : TypeRef → Nat
  | ⟨_, _, args, _⟩ => sizeList args + 1

/-- The number of references in a list. -/
def sizeList : List TypeRef → Nat
  | [] => 0
  | t :: ts => size t + sizeList ts

end

theorem sizeList_append (as bs : List TypeRef) :
    sizeList (as ++ bs) = sizeList as + sizeList bs := by
  induction as with
  | nil => simp [sizeList]
  | cons a as ih => simp only [List.cons_append, sizeList, ih]; omega

theorem size_eq (t : TypeRef) : t.size = sizeList t.args + 1 := by
  cases t; rfl

/-! ### References within references -/

/-- A list of references with all those among their arguments: each reference
is followed by what its arguments hold. -/
def withArgs : List TypeRef → List TypeRef
  | [] => []
  | t :: pending => t :: withArgs (t.args ++ pending)
termination_by pending => sizeList pending
decreasing_by
  rw [sizeList_append, sizeList, size_eq]
  omega

end TypeRef

end SharpEmit
