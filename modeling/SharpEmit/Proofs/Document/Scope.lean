/-
SharpEmit/Proofs/Document/Scope.lean

Each element of a document is read on its own.  A `Loader` is read with again and again, and
keeps the names of the function types that the element at hand declares; it looks names up
among those it keeps when it reads a type, and what it keeps survives a failure.  But an
element replaces what is kept before a type of it is read, so nothing is left of what came
before: a loader that has been through anything gives what `load` gives (`Loader.load_eq`).

Nor does it matter where an element stands.  A reader uses its place for refusals only, so
the same value is read elsewhere with the same outcome, refusals moved along (`IsLocal`).

Main result: a document gives what its elements give alone, one by one to fresh loaders, up to
the first that fails; and every reference, at whatever depth, is resolved beside the function
types of its own element (`load_elementwise`).
-/
import SharpEmit.Proofs.Document.Correspondence
import SharpEmit.Proofs.Document.Places
import SharpEmit.Proofs.Document.RoundTrip

namespace SharpEmit.Document

/-! ### Loaders -/

/-- A loader, with the names of the function types that it knows of. -/
structure Loader where
  scope : List String := []

namespace Loader

/-- What a loader does: it may fail, and what it keeps is kept then too. -/
abbrev Task (α : Type) := ExceptT LoadError (StateM Loader) α

/-- The outcome of a task, and the loader after it. -/
def does {α : Type} (l : Loader) (task : Task α) : Loaded α × Loader := task.run.run l

/-- A reading beside the function types that are known at the time. -/
def beside {α : Type} (read : List String → Loaded α) : Task α := do
  read (← get).scope

/-- Reads an element. -/
def elementTask (place : Pointer) (value : Json) : Task Declaration := do
  let members ← objectAt place value
  let name ← nameAt (place.key "name") (members.getD "name" .null)
  let functionTypes ← itemsOf (members.getD "functionTypes" (.arr []))
  let names ← aliasNames (place.key "functionTypes") functionTypes
  set { scope := names : Loader }
  let package ← packageAt (place.key "package") (members.getD "package" (.str ""))
  let tags ← stringsAt (place.key "metadata") (members.getD "metadata" (.arr []))
  let aliases ← beside fun scope => each (aliasAt scope) (place.key "functionTypes") functionTypes
  let items ← itemsOf (members.getD "functions" (.arr []))
  let functions ← beside fun scope => each (functionAt scope) (place.key "functions") items
  let shape ← beside fun scope => shapeAt scope place members
  pure { name, package, tags, aliases, functions, shape }

/-- Reads elements one after the other, the first one at index `i`. -/
def elementsTask (place : Pointer) (i : Nat) : List Json → Task (List Declaration)
  | [] => pure []
  | value :: rest => do
    let d ← elementTask (place.index i) value
    let ds ← elementsTask place (i + 1) rest
    pure (d :: ds)

/-- Loads a document. -/
def load (l : Loader) (document : Json) : Loaded (List Declaration) × Loader :=
  l.does (match document.get? "types" with
    | some (.arr elements) => elementsTask (Pointer.root.key "types") 0 elements
    | _ => (reject .notDocument .root : Loaded (List Declaration)))

section

variable {α β : Type}

/-- A task after another one is done by the loader as the first has left it. -/
theorem does_bind (l : Loader) (task : Task α) (next : α → Task β) :
    (l.does (task >>= next)).1 =
      ((l.does task).1 >>= fun a => ((l.does task).2.does (next a)).1) := by
  unfold does
  rw [ExceptT.run_bind, StateT.run_bind]
  obtain ⟨r, l'⟩ := task.run.run l
  cases r <;> rfl

/-- What is read without a look at what is kept leaves that as it is. -/
theorem does_read (l : Loader) (r : Loaded α) (next : α → Task β) :
    (l.does (liftM r >>= next)).1 = (r >>= fun a => (l.does (next a)).1) := by
  cases r <;> rfl

theorem does_beside (l : Loader) (read : List String → Loaded α) (next : α → Task β) :
    (l.does (beside read >>= next)).1 = (read l.scope >>= fun a => (l.does (next a)).1) := by
  show (l.does (liftM (read l.scope) >>= next)).1 = _
  exact does_read l _ next

theorem does_set (l l' : Loader) (next : PUnit → Task β) :
    (l.does (set l' >>= next)).1 = (l'.does (next ⟨⟩)).1 := rfl

end

theorem does_elementTask (l : Loader) (place : Pointer) (value : Json) :
    (l.does (elementTask place value)).1 = declarationAt place value := by
  unfold elementTask declarationAt
  -- the names are set before anything is read beside them, and after that `l` is gone
  simp only [does_read, does_set, does_beside]
  rfl

theorem does_elementsTask (l : Loader) (place : Pointer) (i : Nat) (elements : List Json) :
    (l.does (elementsTask place i elements)).1 = eachFrom declarationAt place i elements := by
  induction elements generalizing l i with
  | nil => rfl
  | cons value rest ih =>
    -- the rest is read by another loader, as this element has left it
    rw [elementsTask, does_bind, does_elementTask, eachFrom]
    congr 1
    funext d
    rw [does_bind, ih]
    rfl

/-- What a loader gives does not depend on what it keeps. -/
theorem load_eq (l : Loader) (document : Json) : (l.load document).1 = Document.load document := by
  unfold load Document.load
  cases document.get? "types" with
  | none => rfl
  | some value =>
    cases value with
    | arr elements => exact does_elementsTask l _ 0 elements
    | _ => rfl

end Loader

/-! ### Readings elsewhere -/

/-- The place that is reached from another one. -/
def Pointer.within (outer inner : Pointer) : Pointer := ⟨outer.steps ++ inner.steps⟩

theorem Pointer.within_key (outer inner : Pointer) (key : String) :
    (outer.within inner).key key = outer.within (inner.key key) :=
  congrArg Pointer.mk (List.append_assoc _ _ _)

theorem Pointer.within_index (outer inner : Pointer) (i : Nat) :
    (outer.within inner).index i = outer.within (inner.index i) :=
  congrArg Pointer.mk (List.append_assoc _ _ _)

theorem Pointer.within_root (outer : Pointer) : outer.within .root = outer :=
  congrArg Pointer.mk (List.append_nil _)

/-- The error, if the value is at a place. -/
def LoadError.within (outer : Pointer) : LoadError → LoadError
  | .rejected problem place => .rejected problem (outer.within place)
  | error => error

/-- A reading that is the same everywhere, but for the place of a refusal. -/
def IsLocal {α : Type} (r : Pointer → Loaded α) : Prop :=
  ∀ outer inner, r (outer.within inner) = (r inner).mapError (LoadError.within outer)

section IsLocal

variable {α β : Type}

namespace IsLocal

theorem ok (a : α) : IsLocal fun _ => .ok a := fun _ _ => rfl

theorem reject (problem : Problem) : IsLocal fun place => (reject problem place : Loaded α) :=
  fun _ _ => rfl

theorem bind {r : Pointer → Loaded α} {next : Pointer → α → Loaded β} (h : IsLocal r)
    (hnext : ∀ a, IsLocal fun place => next place a) :
    IsLocal fun place => r place >>= next place := by
  intro outer inner
  show (r (outer.within inner) >>= _) = (r inner >>= next inner).mapError _
  rw [h outer inner]
  cases r inner with
  | error e => rfl
  | ok a => exact hnext a outer inner

theorem map {r : Pointer → Loaded α} (h : IsLocal r) (f : α → β) :
    IsLocal fun place => f <$> r place := by
  intro outer inner
  show f <$> r (outer.within inner) = (f <$> r inner).mapError _
  rw [h outer inner]
  cases r inner <;> rfl

/-- What is read under a key. -/
theorem key {r : Pointer → Loaded α} (h : IsLocal r) (key : String) :
    IsLocal fun place => r (place.key key) := by
  intro outer inner
  show r ((outer.within inner).key key) = _
  rw [Pointer.within_key]
  exact h outer (inner.key key)

theorem index {r : Pointer → Loaded α} (h : IsLocal r) (i : Nat) :
    IsLocal fun place => r (place.index i) := by
  intro outer inner
  show r ((outer.within inner).index i) = _
  rw [Pointer.within_index]
  exact h outer (inner.index i)

theorem each {read : Pointer → Json → Loaded α} (h : ∀ item, IsLocal fun place => read place item)
    (items : List Json) : IsLocal fun place => each read place items := by
  have hfrom : ∀ i, IsLocal fun place => eachFrom read place i items := by
    induction items with
    | nil => exact fun _ => .ok []
    | cons item rest ih =>
      intro i
      refine .bind ((h item).index i) fun a => ?_
      exact .bind (ih (i + 1)) fun as => .ok (a :: as)
  exact hfrom 0

end IsLocal

end IsLocal

section Readers

variable (scope : List String) (value : Json) (members : Members)

theorem objectAt_local : IsLocal fun place => objectAt place value := by
  cases value with
  | obj members => exact .ok members
  | _ => exact .reject _

theorem listAt_local : IsLocal fun place => listAt place value := by
  cases value with
  | arr items => exact .ok items
  | _ => exact .reject _

theorem stringAt_local : IsLocal fun place => stringAt place value := by
  cases value with
  | str s => exact .ok s
  | _ => exact .reject _

theorem nameAt_local : IsLocal fun place => nameAt place value := by
  cases value with
  | str s =>
    show IsLocal fun place => if s = "" then reject .notName place else .ok s
    split
    · exact .reject _
    · exact .ok s
  | _ => exact .reject _

theorem optionalStringAt_local : IsLocal fun place => optionalStringAt place value := by
  cases value with
  | null => exact .ok none
  | _ => exact (stringAt_local _).map some

theorem stringsAt_local : IsLocal fun place => stringsAt place value :=
  .bind (listAt_local value) fun items => .each stringAt_local items

theorem itemsOf_local : IsLocal fun _ => itemsOf value := by
  intro outer inner
  unfold itemsOf
  cases value.items <;> rfl

theorem packageAt_local : IsLocal fun place => packageAt place value := by
  cases value with
  | str s => exact .ok _
  | arr items =>
    simp only [packageAt]
    split
    · exact .ok _
    · exact .reject _
  | _ => exact .reject _

theorem visibilityAt_local : IsLocal fun place => visibilityAt place value := by
  unfold visibilityAt
  dsimp only
  split
  · exact .ok _
  · exact .reject _

theorem chainAt_local : IsLocal fun place => chainAt place value := by
  refine .bind (objectAt_local value) fun members => ?_
  have hargs : ∀ kind : ChainKind, IsLocal fun place =>
      listAt (place.key "args") (members.getD "args" (.arr [])) >>= fun args =>
        pure { kind, args := args.map Json.display : Chain } :=
    fun kind => .bind ((listAt_local _).key "args") fun args => .ok _
  dsimp only
  -- the arguments are read whatever the kind is, unless it is refused
  split
  · exact hargs _
  · exact hargs _
  · exact .bind ((IsLocal.reject _).key "kind") hargs

/-! #### Types -/

mutual

theorem typeAt_local : ∀ value, IsLocal fun place => typeAt scope place value
  | .str s => by
    simp only [typeAt]
    exact .ok _
  | .obj members => by
    simp only [typeAt]
    refine .bind ((nameAt_local _).key "name") fun name => ?_
    refine .bind ((argsAt_local members).key "args") fun args => ?_
    exact .bind ((packageAt_local _).key "package") fun package => .ok _
  | .null | .bool _ | .int _ | .real _ | .arr _ => by
    simp only [typeAt]
    exact .reject _

theorem argsAt_local : ∀ members : Members, IsLocal fun place => argsAt scope place members
  | [] => by
    simp only [argsAt]
    exact .ok _
  | (key, value) :: rest => by
    simp only [argsAt]
    split
    · exact argItemsAt_local value
    · exact argsAt_local rest

theorem argItemsAt_local : ∀ value, IsLocal fun place => argItemsAt scope place value
  | .arr items => by
    simp only [argItemsAt]
    exact typesFrom_local 0 items
  | .str s => by
    simp only [argItemsAt]
    exact .ok _
  | .obj members => by
    simp only [argItemsAt]
    exact .ok _
  | .null | .bool _ | .int _ | .real _ => by
    simp only [argItemsAt]
    exact .bind (itemsOf_local _) fun _ => .ok _

theorem typesFrom_local (i : Nat) :
    ∀ items : List Json, IsLocal fun place => typesFrom scope place i items
  | [] => by
    simp only [typesFrom]
    exact .ok _
  | item :: rest => by
    simp only [typesFrom]
    refine .bind ((typeAt_local item).index i) fun t => ?_
    exact .bind (typesFrom_local (i + 1) rest) fun ts => .ok _

end

theorem optionalTypeAt_local : IsLocal fun place => optionalTypeAt scope place value := by
  unfold optionalTypeAt
  split
  · exact (typeAt_local scope value).map some
  · exact .ok none

/-! #### Members -/

theorem paramAt_local : IsLocal fun place => paramAt scope place value := by
  refine .bind (objectAt_local value) fun members => ?_
  refine .bind ((nameAt_local _).key "name") fun name => ?_
  exact .bind ((typeAt_local scope _).key "type") fun type => .ok _

theorem paramsAt_local : IsLocal fun place => paramsAt scope place value :=
  .bind (listAt_local value) fun items => .each (paramAt_local scope) items

theorem fieldAt_local : IsLocal fun place => fieldAt scope place value := by
  refine .bind (objectAt_local value) fun members => ?_
  refine .bind ((nameAt_local _).key "name") fun name => ?_
  refine .bind ((typeAt_local scope _).key "type") fun type => ?_
  refine .bind ((visibilityAt_local _).key "visibility") fun visibility => ?_
  exact .bind ((optionalStringAt_local _).key "initializer") fun initializer => .ok _

theorem functionAt_local : IsLocal fun place => functionAt scope place value := by
  refine .bind (objectAt_local value) fun members => ?_
  refine .bind ((nameAt_local _).key "name") fun name => ?_
  refine .bind ((visibilityAt_local _).key "visibility") fun visibility => ?_
  refine .bind ((optionalTypeAt_local scope _).key "returns") fun returnType => ?_
  refine .bind ((paramsAt_local scope _).key "params") fun params => ?_
  refine .bind ((stringsAt_local _).key "body") fun body => ?_
  dsimp only
  split
  · exact .bind (((chainAt_local _).key "delegates").map some) fun chain => .ok _
  · exact .ok _

theorem aliasAt_local : IsLocal fun place => aliasAt scope place value := by
  refine .bind (objectAt_local value) fun members => ?_
  refine .bind ((nameAt_local _).key "name") fun name => ?_
  refine .bind ((optionalTypeAt_local scope _).key "returns") fun returnType => ?_
  exact .bind ((paramsAt_local scope _).key "params") fun params => .ok _

/-! #### Declarations -/

theorem aliasNames_local (items : List Json) : IsLocal fun place => aliasNames place items := by
  induction items with
  | nil => exact .ok []
  | cons item rest ih =>
    cases item with
    | obj members =>
      refine .bind (nameAt_local _) fun name => ?_
      exact .bind ih fun names => .ok _
    | _ => exact ih

theorem classPartAt_local : IsLocal fun place => classPartAt scope place members := by
  refine .bind (itemsOf_local _) fun items => ?_
  refine .bind ((IsLocal.each (fieldAt_local scope) items).key "fields") fun fields => ?_
  refine .bind ((optionalTypeAt_local scope _).key "extends") fun base => ?_
  refine .bind (itemsOf_local _) fun items => ?_
  exact .bind ((IsLocal.each (typeAt_local scope) items).key "implements") fun interfaces => .ok _

theorem shapeAt_local : IsLocal fun place => shapeAt scope place members := by
  unfold shapeAt
  split
  · exact .ok _
  · exact (classPartAt_local scope members).map _
  · exact (IsLocal.reject _).key "kind"

theorem declarationAt_local : IsLocal fun place => declarationAt place value := by
  refine .bind (objectAt_local value) fun members => ?_
  refine .bind ((nameAt_local _).key "name") fun name => ?_
  refine .bind (itemsOf_local _) fun functionTypes => ?_
  refine .bind ((aliasNames_local functionTypes).key "functionTypes") fun scope => ?_
  refine .bind ((packageAt_local _).key "package") fun package => ?_
  refine .bind ((stringsAt_local _).key "metadata") fun tags => ?_
  refine .bind ((IsLocal.each (aliasAt_local scope) functionTypes).key "functionTypes")
    fun aliases => ?_
  refine .bind (itemsOf_local _) fun items => ?_
  refine .bind ((IsLocal.each (functionAt_local scope) items).key "functions") fun functions => ?_
  exact .bind (shapeAt_local scope members) fun shape => .ok _

end Readers

/-! ### Elements -/

/-- A document with one element. -/
def alone (element : Json) : Json := .obj [("types", .arr [element])]

theorem declarationAt_elementPlace (i : Nat) (element : Json) :
    declarationAt (elementPlace i) element =
      (declarationAt .root element).mapError (LoadError.within (elementPlace i)) := by
  have h := declarationAt_local element (elementPlace i) .root
  rwa [Pointer.within_root] at h

theorem load_alone (element : Json) :
    load (alone element) = (fun d => [d]) <$> declarationAt (elementPlace 0) element := by
  show (declarationAt (elementPlace 0) element >>= fun d => _) = _
  cases declarationAt (elementPlace 0) element <;> rfl

theorem load_alone_ok {element : Json} {d : Declaration}
    (h : declarationAt .root element = .ok d) : load (alone element) = .ok [d] := by
  rw [load_alone, declarationAt_elementPlace, h]
  rfl

theorem load_alone_error {element : Json} {e : LoadError}
    (h : declarationAt .root element = .error e) :
    load (alone element) = .error (e.within (elementPlace 0)) := by
  rw [load_alone, declarationAt_elementPlace, h]
  rfl

/-- Elements are read up to the first that cannot be. -/
theorem eachFrom_declarationAt (i : Nat) (elements : List Json) :
    (∃ ds, eachFrom declarationAt (Pointer.root.key "types") i elements = .ok ds ∧
        List.Forall₂ (fun element d => declarationAt .root element = .ok d) elements ds) ∨
      ∃ j element e, elements[j]? = some element ∧
        (∀ earlier ∈ elements.take j, ∃ d, declarationAt .root earlier = .ok d) ∧
        declarationAt .root element = .error e ∧
        eachFrom declarationAt (Pointer.root.key "types") i elements =
          .error (e.within (elementPlace (i + j))) := by
  induction elements generalizing i with
  | nil => exact .inl ⟨[], rfl, .nil⟩
  | cons element rest ih =>
    have hplace := declarationAt_elementPlace i element
    rw [eachFrom, show (Pointer.root.key "types").index i = elementPlace i from rfl, hplace]
    cases helement : declarationAt .root element with
    | error e => exact .inr ⟨0, element, e, rfl, by simp, helement, rfl⟩
    | ok d =>
      rcases ih (i + 1) with ⟨ds, hds, hread⟩ | ⟨j, failing, e, hj, hearlier, hfailing, he⟩
      · rw [hds]
        exact .inl ⟨d :: ds, rfl, .cons helement hread⟩
      · -- the first that fails is one further on
        rw [he]
        refine .inr ⟨j + 1, failing, e, hj, ?_, hfailing, ?_⟩
        · rw [List.take_succ_cons, List.forall_mem_cons]
          exact ⟨⟨d, helement⟩, hearlier⟩
        · have hindex : i + 1 + j = i + (j + 1) := by omega
          rw [hindex]
          rfl

theorem denotes_kindOf (scope : List String) (name : String) (package : List String) :
    Denotes scope name package (kindOf scope name package) := by
  unfold kindOf primitiveNames
  split
  · rename_i hpackage
    exact .packaged hpackage
  · rename_i hpackage
    obtain rfl : package = [] := by simpa using hpackage
    split
    · rename_i hvoid
      exact .void hvoid
    · rename_i hvoid
      split
      · rename_i hprimitive
        exact .primitive hprimitive
      · rename_i hprimitive
        have hbuiltin : name ∉ ["void", "int", "uint", "Number", "Boolean"] := by
          rw [List.mem_cons, not_or]
          exact ⟨hvoid, hprimitive⟩
        split
        · rename_i hscope
          exact .functionType hbuiltin hscope
        · rename_i hscope
          exact .classType hbuiltin hscope

/-- Whatever a loader has been through, the references of what it loads are of the kinds that
follow beside the function types of their own element; and it gives what fresh loaders give of
the elements alone, or fails as the first of these does, but for the index. -/
theorem load_elementwise (l : Loader) (document : Json) :
    (∀ ds, (l.load document).1 = .ok ds →
      ∃ elements, document.get? "types" = some (.arr elements) ∧
        List.Forall₂ (fun element d => ∀ t ∈ Declaration.references d,
          Denotes (declaredNames element) t.name t.package t.kind) elements ds) ∧
      ∀ elements, document.get? "types" = some (.arr elements) →
        (∃ ds, (l.load document).1 = .ok ds ∧
          List.Forall₂ (fun element d => (Loader.load {} (alone element)).1 = .ok [d])
            elements ds) ∨
        ∃ (i : Nat) (element : Json) (e : LoadError), elements[i]? = some element ∧
          (∀ earlier ∈ elements.take i, ∃ d, (Loader.load {} (alone earlier)).1 = .ok [d]) ∧
          (Loader.load {} (alone element)).1 = .error (e.within (elementPlace 0)) ∧
          (l.load document).1 = .error (e.within (elementPlace i)) := by
  simp only [Loader.load_eq]
  refine ⟨?_, ?_⟩
  · intro ds hload
    obtain ⟨elements, helements, hds⟩ := elements_of_load hload
    refine ⟨elements, helements, ?_⟩
    refine (eachFrom_from declarationAt_references _ 0 elements ds hds).imp ?_
    intro element d hd t ht
    rw [(hd t ht).kind_eq]
    exact denotes_kindOf _ _ _
  · intro elements helements
    rw [load_of_elements helements]
    rcases eachFrom_declarationAt 0 elements with
      ⟨ds, hds, hread⟩ | ⟨i, element, e, hi, hearlier, helement, he⟩
    · exact .inl ⟨ds, hds, hread.imp fun element d => load_alone_ok⟩
    · rw [Nat.zero_add] at he
      refine .inr ⟨i, element, e, hi, ?_, load_alone_error helement, he⟩
      intro earlier hmem
      obtain ⟨d, hd⟩ := hearlier earlier hmem
      exact ⟨d, load_alone_ok hd⟩

/-- A class that uses its function type in an argument before the entry and inside it, and a
class that extends another one of that name. -/
def visitDocument : Json :=
  .obj [("types", .arr [
    .obj [("name", .str "A"),
      ("fields", .arr [.obj [("name", .str "x"),
        ("type", .obj [("name", .str "Vector"), ("args", .arr [.str "Visit"])])]]),
      ("functionTypes", .arr [.obj [("name", .str "Visit"), ("returns", .str "Visit")]])],
    .obj [("name", .str "B"), ("extends", .str "Visit")]])]

/-- The two classes. -/
def visitClasses : List Declaration :=
  [{ name := "A"
     aliases := [{ name := "Visit", returnType := some { name := "Visit", kind := .functionType } }]
     shape := .classShape
      { fields := [{ name := "x"
                     type := some { name := "Vector"
                                    args := [{ name := "Visit", kind := .functionType }] } }] } },
    { name := "B", shape := .classShape { base := some { name := "Visit" } } }]

/-- A loader that knows of function types with the names of all the classes. -/
def staleLoader : Loader := { scope := ["Visit", "Vector", "A", "B"] }

theorem load_elementwise_stale :
    (staleLoader.load visitDocument).1 = .ok visitClasses ∧
      (∃ elements, visitDocument.get? "types" = some (.arr elements) ∧
        List.Forall₂ (fun element d => ∀ t ∈ Declaration.references d,
          Denotes (declaredNames element) t.name t.package t.kind) elements visitClasses) ∧
      ∃ elements, visitDocument.get? "types" = some (.arr elements) ∧
        List.Forall₂ (fun element d => (Loader.load {} (alone element)).1 = .ok [d])
          elements visitClasses := by
  have hload : (staleLoader.load visitDocument).1 = .ok visitClasses := rfl
  obtain ⟨hkinds, halone⟩ := load_elementwise staleLoader visitDocument
  refine ⟨hload, hkinds _ hload, _, rfl, ?_⟩
  rcases halone _ rfl with ⟨ds, hds, h⟩ | ⟨i, element, e, -, -, -, he⟩
  · cases hload.symm.trans hds
    exact h
  · cases hload.symm.trans he

end SharpEmit.Document
