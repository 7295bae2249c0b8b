/-
SharpEmit/Proofs/Model/ReferenceWalk.lean

The walk that lists the references of a declaration.  It takes the first of the pending
references, lists it and puts its arguments in front of the others (`Walk.step`), so what is
pending may get longer at a step.  But all that is nested in it becomes less by one reference
(`Walk.sizeList_step`), and what is listed, with the references below what is pending after
it, stays the same (`Walk.outcome_step`).  So every walk comes to an end, and it ends with its
outcome (`Walk.eval_step`).

Main result: from the types that a declaration names, in order, the walk ends with its
references, and these are what each named type holds, outermost first
(`references_preorder`).
-/
import Mathlib.Computability.StateTransition
import Mathlib.Data.List.ReduceOption
import SharpEmit.Model.Declaration

namespace SharpEmit

namespace TypeRef

/-! ### Preorder -/

mutual

/-- A reference, and then what each of its arguments holds. -/
def preorder : TypeRef → List TypeRef
  | ⟨name, package, args, kind⟩ => ⟨name, package, args, kind⟩ :: preorderAll args

/-- What references hold, one after the other. -/
def preorderAll : List TypeRef → List TypeRef
  | [] => []
  | t :: ts => preorder t ++ preorderAll ts

end

theorem preorderAll_eq_flatMap (ts : List TypeRef) : preorderAll ts = ts.flatMap preorder := by
  induction ts with
  | nil => rfl
  | cons t ts ih => rw [preorderAll, ih, List.flatMap_cons]

theorem preorder_eq (t : TypeRef) : t.preorder = t :: t.args.flatMap preorder := by
  obtain ⟨name, package, args, kind⟩ := t
  rw [preorder, preorderAll_eq_flatMap]

/-! ### Steps -/

/-- A walk on its way: the references listed so far, and those that are pending. -/
structure Walk where
  listed : List TypeRef := []
  pending : List TypeRef

namespace Walk

/-- The first pending reference is listed, and its arguments are pending before the others. -/
def step : Walk → Option Walk
  | ⟨_, []⟩ => none
  | ⟨listed, t :: pending⟩ => some ⟨listed ++ [t], t.args ++ pending⟩

/-- What a walk is going to list. -/
def outcome (w : Walk) : List TypeRef := w.listed ++ w.pending.flatMap preorder

variable {w w' : Walk}

/-- A step leaves one reference less in what is pending, at whatever depth they are. -/
theorem sizeList_step (h : w.step = some w') : sizeList w'.pending + 1 = sizeList w.pending := by
  obtain ⟨listed, pending⟩ := w
  cases pending with
  | nil => cases h
  | cons t pending =>
    cases h
    rw [sizeList_append, sizeList, size_eq]
    omega

/-- A step does not change what is going to be listed. -/
theorem outcome_step (h : w.step = some w') : w'.outcome = w.outcome := by
  obtain ⟨listed, pending⟩ := w
  cases pending with
  | nil => cases h
  | cons t pending =>
    cases h
    simp [outcome, preorder_eq t]

theorem step_eq_none_iff : w.step = none ↔ w.pending = [] := by
  obtain ⟨listed, pending⟩ := w
  cases pending <;> simp [step]

/-! ### Runs -/

/-- From wherever a walk is, it gets to the end: by induction on all that is pending. -/
theorem reaches_outcome (w : Walk) : StateTransition.Reaches step w ⟨w.outcome, []⟩ := by
  cases hstep : w.step with
  | none =>
    obtain ⟨listed, pending⟩ := w
    obtain rfl : pending = [] := step_eq_none_iff.mp hstep
    rw [show outcome ⟨listed, []⟩ = listed from List.append_nil listed]
    exact Relation.ReflTransGen.refl
  | some w' =>
    have hsize := sizeList_step hstep
    have hrest := reaches_outcome w'
    rw [outcome_step hstep] at hrest
    exact hrest.head hstep
termination_by sizeList w.pending

/-- A walk ends, with its outcome. -/
theorem eval_step (w : Walk) : StateTransition.eval step w = Part.some ⟨w.outcome, []⟩ :=
  Part.eq_some_iff.mpr (StateTransition.mem_eval.mpr ⟨reaches_outcome w, rfl⟩)

end Walk

/-- The references within a list are those that a walk over it lists. -/
theorem withArgs_eq_outcome (pending : List TypeRef) :
    withArgs pending = (Walk.mk [] pending).outcome := by
  fun_induction withArgs pending with
  | case1 => rfl
  | case2 t pending ih => simp [ih, Walk.outcome, preorder_eq t]

end TypeRef

/-! ### Declarations -/

namespace Declaration

/-- The places of a class that take types: its base, its interfaces and its fields. -/
def classPlaces (part : ClassPart) : List (Option TypeRef) :=
  part.base :: part.interfaces.map some ++ part.fields.map (·.type)

/-- The places of a signature that take types: its result and its parameters. -/
def signaturePlaces (returnType : Option TypeRef) (params : List Param) : List (Option TypeRef) :=
  returnType :: params.map (·.type)

/-- The places of a declaration that take types, in order; some may be left empty. -/
def typePlaces (d : Declaration) : List (Option TypeRef) :=
  (d.aliases.flatMap fun a => signaturePlaces a.returnType a.params) ++
    (match d.shape with
      | .classShape part => classPlaces part
      | .interfaceShape => []) ++
    d.functions.flatMap fun f => signaturePlaces f.returnType f.params

theorem reduceOption_map {α : Type} (type : α → Option TypeRef) (xs : List α) :
    (xs.map type).reduceOption = xs.filterMap type :=
  List.filterMap_map

theorem reduceOption_flatMap {α : Type} (places : α → List (Option TypeRef)) (xs : List α) :
    (xs.flatMap places).reduceOption = xs.flatMap fun x => (places x).reduceOption :=
  List.filterMap_flatMap

theorem reduceOption_classPlaces (part : ClassPart) :
    (classPlaces part).reduceOption = (Shape.classShape part).types := by
  have hbase : part.base :: part.interfaces.map some = [part.base] ++ part.interfaces.map some := rfl
  rw [classPlaces, hbase, List.reduceOption_append, List.reduceOption_append,
    List.reduceOption_singleton, reduceOption_map, reduceOption_map, List.filterMap_some]
  rfl

theorem reduceOption_signaturePlaces (returnType : Option TypeRef) (params : List Param) :
    (signaturePlaces returnType params).reduceOption = returnType.toList ++ paramTypes params := by
  have hresult : returnType :: params.map (·.type) = [returnType] ++ params.map (·.type) := rfl
  rw [signaturePlaces, hresult, List.reduceOption_append, List.reduceOption_singleton,
    reduceOption_map]
  rfl

/-- The types that a declaration names are those in its places. -/
theorem signatureTypes_eq (d : Declaration) : d.signatureTypes = d.typePlaces.reduceOption := by
  have hshape : d.shape.types =
      (match d.shape with
        | .classShape part => classPlaces part
        | .interfaceShape => []).reduceOption := by
    cases d.shape with
    | classShape part => exact (reduceOption_classPlaces part).symm
    | interfaceShape => rfl
  rw [typePlaces, List.reduceOption_append, List.reduceOption_append, ← hshape,
    reduceOption_flatMap, reduceOption_flatMap]
  simp only [reduceOption_signaturePlaces]
  rfl

/-- The walk over the types that a declaration names comes to an end, and what it has listed
then are the references of the declaration: each named type, with its arguments after it and
with theirs after each of them. -/
theorem references_preorder (d : Declaration) :
    StateTransition.eval TypeRef.Walk.step { pending := d.typePlaces.reduceOption } =
        Part.some { listed := d.references, pending := [] } ∧
      d.references = d.typePlaces.reduceOption.flatMap TypeRef.preorder := by
  have houtcome : d.references = (TypeRef.Walk.mk [] d.typePlaces.reduceOption).outcome := by
    rw [references, signatureTypes_eq, TypeRef.withArgs_eq_outcome]
  refine ⟨?_, houtcome⟩
  rw [houtcome]
  exact TypeRef.Walk.eval_step _

end Declaration

end SharpEmit
