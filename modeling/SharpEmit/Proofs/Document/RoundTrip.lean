/-
SharpEmit/Proofs/Document/RoundTrip.lean

Declarations as documents.  `ofDeclarations` writes declarations in the form in which they
are documented: types as objects with a name, a list of package segments and a list of
arguments, flags as truth values, and what is missing left out.

What a document says of a type is its name, its package and its arguments; the kind of type
that is meant follows from these and from the function types declared beside it (`Denotes`).
A declaration is well formed (`IsWellFormed`) when every name in it is there, every field and
parameter has a type, and every type, at whatever depth of arguments, is of the kind that
follows.

Each part of a well-formed declaration is read from what was written of it, so the readers
have one lemma each, the one for types by induction on their arguments.  Main result:
well-formed declarations are loaded from their document as they were
(`load_ofDeclarations`).
-/
import SharpEmit.Proofs.Document.Failure

namespace SharpEmit.Document

/-! ### Writing declarations -/

/-- Texts as a list. -/
def ofStrings (texts : List String) : Json := .arr (texts.map .str)

mutual

/-- A type as an object. -/
def ofType : TypeRef → Json
  | ⟨name, package, args, _⟩ =>
    .obj [("name", .str name), ("package", ofStrings package), ("args", .arr (ofTypes args))]

/-- Types as objects, one by one. -/
def ofTypes : List TypeRef → List Json
  | [] => []
  | t :: ts => ofType t :: ofTypes ts

end

/-- The member for a value that may be missing. -/
def optionalMember {α : Type} (key : String) (write : α → Json) : Option α → Members
  | none => []
  | some a => [(key, write a)]

/-- The word for the constructor that is called first. -/
def chainKey : ChainKind → String
  | .sameClass => "this"
  | .baseClass => "super"

/-- The call of another constructor as an object. -/
def ofChain (c : Chain) : Json :=
  .obj [("kind", .str (chainKey c.kind)), ("args", ofStrings c.args)]

/-- A parameter as an object. -/
def ofParam (p : Param) : Json :=
  .obj (("name", .str p.name) :: optionalMember "type" ofType p.type)

/-- A field as an object. -/
def ofField (f : Field) : Json :=
  .obj ([("name", .str f.name), ("visibility", .str f.visibility.word),
      ("const", .bool f.isConst), ("static", .bool f.isStatic)] ++
    (optionalMember "type" ofType f.type ++ optionalMember "initializer" .str f.initializer))

/-- A function as an object. -/
def ofFunction (f : Function) : Json :=
  .obj ([("name", .str f.name), ("visibility", .str f.visibility.word),
      ("params", .arr (f.params.map ofParam)), ("body", ofStrings f.body),
      ("constructor", .bool f.isConstructor), ("static", .bool f.isStatic),
      ("override", .bool f.isOverride), ("getter", .bool f.isGetter),
      ("setter", .bool f.isSetter)] ++
    (optionalMember "returns" ofType f.returnType ++ optionalMember "delegates" ofChain f.chain))

/-- A function type as an object. -/
def ofAlias (a : Alias) : Json :=
  .obj ([("name", .str a.name), ("params", .arr (a.params.map ofParam))] ++
    optionalMember "returns" ofType a.returnType)

/-- The word for a class or an interface. -/
def shapeWord : Shape → String
  | .classShape _ => "class"
  | .interfaceShape => "interface"

/-- The members that only a class has. -/
def ofShape : Shape → Members
  | .classShape part =>
    [("fields", .arr (part.fields.map ofField)), ("final", .bool part.isFinal),
      ("implements", .arr (part.interfaces.map ofType))] ++
      optionalMember "extends" ofType part.base
  | .interfaceShape => []

/-- The members of a declaration. -/
def declarationMembers (d : Declaration) : Members :=
  [("kind", .str (shapeWord d.shape)), ("name", .str d.name), ("package", ofStrings d.package),
    ("metadata", ofStrings d.tags), ("functionTypes", .arr (d.aliases.map ofAlias)),
    ("functions", .arr (d.functions.map ofFunction))] ++ ofShape d.shape

/-- A declaration as an object. -/
def ofDeclaration (d : Declaration) : Json := .obj (declarationMembers d)

/-- Declarations as a document. -/
def ofDeclarations (ds : List Declaration) : Json := .obj [("types", .arr (ds.map ofDeclaration))]

/-! ### Well-formed declarations -/

/-- What a name in a package refers to, beside function types of the given names.  A name in
a package is that of a class; one without a package is looked for among the built-in types
first. -/
inductive Denotes (scope : List String) (name : String) : List String → TypeKind → Prop
  | packaged {package} : package ≠ [] → Denotes scope name package .classType
  | void : name = "void" → Denotes scope name [] .void
  | primitive : name ∈ ["int", "uint", "Number", "Boolean"] → Denotes scope name [] .primitive
  | functionType : name ∉ ["void", "int", "uint", "Number", "Boolean"] → name ∈ scope →
      Denotes scope name [] .functionType
  | classType : name ∉ ["void", "int", "uint", "Number", "Boolean"] → name ∉ scope →
      Denotes scope name [] .classType

/-- A reference with a name, of the kind that follows from it, and so for its arguments. -/
inductive IsResolved (scope : List String) : TypeRef → Prop
  | mk {name package args kind} : name ≠ "" → Denotes scope name package kind →
      (∀ t ∈ args, IsResolved scope t) → IsResolved scope ⟨name, package, args, kind⟩

/-- A parameter or a field with a name and a type. -/
structure IsTyped (scope : List String) (name : String) (type : Option TypeRef) : Prop where
  named : name ≠ ""
  typed : ∃ t, type = some t ∧ IsResolved scope t

/-- A function or a function type with a name, whose parameters have names and types. -/
structure IsSignature (scope : List String) (name : String) (returnType : Option TypeRef)
    (params : List Param) : Prop where
  named : name ≠ ""
  returns : ∀ t ∈ returnType, IsResolved scope t
  params : ∀ p ∈ params, IsTyped scope p.name p.type

/-- The fields of a class have names and types, and what it names itself is resolved. -/
structure IsWellFormedPart (scope : List String) (part : ClassPart) : Prop where
  fields : ∀ f ∈ part.fields, IsTyped scope f.name f.type
  base : ∀ t ∈ part.base, IsResolved scope t
  interfaces : ∀ t ∈ part.interfaces, IsResolved scope t

/-- The names of the function types that a declaration has. -/
def scopeOf (d : Declaration) : List String := d.aliases.map (·.name)

/-- A declaration with a name, whose members are well formed beside its function types. -/
structure IsWellFormed (d : Declaration) : Prop where
  named : d.name ≠ ""
  aliases : ∀ a ∈ d.aliases, IsSignature (scopeOf d) a.name a.returnType a.params
  functions : ∀ f ∈ d.functions, IsSignature (scopeOf d) f.name f.returnType f.params
  part : ∀ part, d.shape = .classShape part → IsWellFormedPart (scopeOf d) part

/-- The reader finds the kind to which a name refers. -/
theorem Denotes.kindOf_eq {scope : List String} {name : String} {package : List String}
    {kind : TypeKind} (h : Denotes scope name package kind) :
    kindOf scope name package = kind := by
  cases h with
  | packaged hpackage => simp [kindOf, hpackage]
  | void hvoid => simp [kindOf, hvoid]
  | primitive hprimitive =>
    have hvoid : name ≠ "void" := by
      rintro rfl
      simp at hprimitive
    simp [kindOf, primitiveNames, hvoid, hprimitive]
  | functionType hbuiltin hscope =>
    rw [List.mem_cons, not_or] at hbuiltin
    simp [kindOf, primitiveNames, hbuiltin, hscope]
  | classType hbuiltin hscope =>
    rw [List.mem_cons, not_or] at hbuiltin
    simp [kindOf, primitiveNames, hbuiltin, hscope]

/-! ### Members of written objects -/

theorem getD_cons (key key' : String) (value default : Json) (rest : Members) :
    Members.getD ((key', value) :: rest) key default =
      if key' = key then value else Members.getD rest key default := by
  unfold Members.getD
  rw [lookup_cons]
  split <;> rfl

/-- A member that may be missing hides the rest only if it is there. -/
theorem getD_optionalMember {α : Type} (key key' : String) (write : α → Json) (a : Option α)
    (rest : Members) (default : Json) :
    Members.getD (optionalMember key' write a ++ rest) key default =
      if key' = key then (a.map write).getD (rest.getD key default)
      else rest.getD key default := by
  cases a with
  | none => simp [optionalMember]
  | some a => simp [optionalMember, getD_cons]

theorem getD_optionalMember_last {α : Type} (key key' : String) (write : α → Json)
    (a : Option α) (default : Json) :
    Members.getD (optionalMember key' write a) key default =
      if key' = key then (a.map write).getD default else default := by
  have h := getD_optionalMember key key' write a [] default
  rwa [List.append_nil] at h

/-! ### Reading what was written -/

section Readers

variable {α β : Type} {scope : List String}

/-- A reading that goes on from a value that was read. -/
theorem bind_eq_ok {r : Loaded α} {next : α → Loaded β} {a : α} {b : β} (h : r = .ok a)
    (hnext : next a = .ok b) : (r >>= next) = .ok b := by
  rw [h]
  exact hnext

/-! #### Simple values -/

theorem nameAt_str {name : String} (h : name ≠ "") (place : Pointer) :
    nameAt place (.str name) = .ok name := by
  simp [nameAt, h]

theorem visibilityAt_word (v : Visibility) (place : Pointer) :
    visibilityAt place (.str v.word) = .ok v := by
  cases v <;> rfl

theorem optionalStringAt_map (s : Option String) (place : Pointer) :
    optionalStringAt place ((s.map Json.str).getD .null) = .ok s := by
  cases s <;> rfl

theorem eachFrom_map {read : Pointer → Json → Loaded α} {write : α → Json} {as : List α}
    (h : ∀ a ∈ as, ∀ place, read place (write a) = .ok a) (place : Pointer) (i : Nat) :
    eachFrom read place i (as.map write) = .ok as := by
  induction as generalizing i with
  | nil => rfl
  | cons a as ih =>
    refine bind_eq_ok (h a List.mem_cons_self _) ?_
    exact bind_eq_ok (ih (fun b hb => h b (List.mem_cons_of_mem a hb)) (i + 1)) rfl

/-- Each item is read if the ones at hand are. -/
theorem each_map {read : Pointer → Json → Loaded α} {write : α → Json} {as : List α}
    (h : ∀ a ∈ as, ∀ place, read place (write a) = .ok a) (place : Pointer) :
    each read place (as.map write) = .ok as :=
  eachFrom_map h place 0

theorem stringsAt_ofStrings (texts : List String) (place : Pointer) :
    stringsAt place (ofStrings texts) = .ok texts := by
  refine bind_eq_ok rfl ?_
  show each stringAt place (texts.map Json.str) = .ok texts
  apply each_map
  intro text _ place
  rfl

theorem strings?_map (texts : List String) : strings? (texts.map .str) = some texts := by
  induction texts with
  | nil => rfl
  | cons s texts ih =>
    rw [List.map_cons, strings?, ih]
    rfl

theorem packageAt_ofStrings (package : List String) (place : Pointer) :
    packageAt place (ofStrings package) = .ok package := by
  rw [ofStrings, packageAt, strings?_map]

theorem chainAt_ofChain (c : Chain) (place : Pointer) : chainAt place (ofChain c) = .ok c := by
  obtain ⟨kind, args⟩ := c
  have hargs : (args.map Json.str).map Json.display = args := by
    rw [List.map_map]
    exact List.map_id args
  cases kind <;>
  · refine bind_eq_ok rfl ?_
    refine bind_eq_ok rfl ?_
    refine bind_eq_ok rfl ?_
    rw [hargs]
    rfl

/-! #### Types -/

mutual

/-- A type is read with its arguments, and its kind follows. -/
theorem typeAt_ofType : ∀ t, IsResolved scope t → ∀ place, typeAt scope place (ofType t) = .ok t
  | ⟨name, package, args, kind⟩, .mk hname hkind hargs, place => by
    rw [ofType, typeAt]
    simp only [getD_cons, String.reduceEq, if_true, if_false]
    refine bind_eq_ok (nameAt_str hname _) ?_
    refine bind_eq_ok (a := args) ?_ ?_
    · simp only [argsAt, String.reduceEq, if_true, if_false, argItemsAt]
      exact typesFrom_ofTypes args hargs _ 0
    · refine bind_eq_ok (packageAt_ofStrings package _) ?_
      rw [resolve, hkind.kindOf_eq]
      rfl

theorem typesFrom_ofTypes :
    ∀ ts : List TypeRef, (∀ t ∈ ts, IsResolved scope t) →
      ∀ place i, typesFrom scope place i (ofTypes ts) = .ok ts
  | [], _, place, i => by
    rw [ofTypes, typesFrom]
  | t :: ts, h, place, i => by
    rw [ofTypes, typesFrom]
    refine bind_eq_ok (typeAt_ofType t (h t List.mem_cons_self) _) ?_
    exact bind_eq_ok
      (typesFrom_ofTypes ts (fun u hu => h u (List.mem_cons_of_mem t hu)) place (i + 1)) rfl

end

/-- An object counts as set, so a type that is there is not taken for a missing one. -/
theorem optionalTypeAt_map {t : Option TypeRef} (h : ∀ u ∈ t, IsResolved scope u)
    (place : Pointer) :
    optionalTypeAt scope place ((t.map ofType).getD .null) = .ok t := by
  cases t with
  | none => rfl
  | some u =>
    have hset : (ofType u).isSet = true := by
      cases u
      rw [ofType]
      rfl
    show optionalTypeAt scope place (ofType u) = _
    rw [optionalTypeAt, if_pos hset, typeAt_ofType u (h u rfl) place]
    rfl

/-! #### Members -/

theorem paramAt_ofParam {p : Param} (h : IsTyped scope p.name p.type) (place : Pointer) :
    paramAt scope place (ofParam p) = .ok p := by
  obtain ⟨name, type⟩ := p
  obtain ⟨t, rfl, ht⟩ := h.typed
  refine bind_eq_ok rfl ?_
  simp only [getD_cons, getD_optionalMember_last, String.reduceEq, if_true, if_false]
  refine bind_eq_ok (nameAt_str h.named _) ?_
  exact bind_eq_ok (typeAt_ofType t ht _) rfl

theorem paramsAt_map {params : List Param} (h : ∀ p ∈ params, IsTyped scope p.name p.type)
    (place : Pointer) : paramsAt scope place (.arr (params.map ofParam)) = .ok params := by
  refine bind_eq_ok rfl ?_
  exact each_map (fun p hp => paramAt_ofParam (h p hp)) place

theorem fieldAt_ofField {f : Field} (h : IsTyped scope f.name f.type) (place : Pointer) :
    fieldAt scope place (ofField f) = .ok f := by
  obtain ⟨name, type, visibility, isConst, isStatic, initializer⟩ := f
  obtain ⟨t, rfl, ht⟩ := h.typed
  refine bind_eq_ok rfl ?_
  simp only [List.cons_append, List.nil_append, getD_cons, getD_optionalMember,
    getD_optionalMember_last, String.reduceEq, if_true, if_false]
  refine bind_eq_ok (nameAt_str h.named _) ?_
  refine bind_eq_ok (typeAt_ofType t ht _) ?_
  refine bind_eq_ok (visibilityAt_word visibility _) ?_
  exact bind_eq_ok (optionalStringAt_map initializer _) rfl

theorem functionAt_ofFunction {f : Function}
    (h : IsSignature scope f.name f.returnType f.params) (place : Pointer) :
    functionAt scope place (ofFunction f) = .ok f := by
  obtain ⟨name, visibility, returnType, params, body, isConstructor, isStatic, isOverride,
    isGetter, isSetter, chain⟩ := f
  refine bind_eq_ok rfl ?_
  simp only [List.cons_append, List.nil_append, getD_cons, getD_optionalMember,
    getD_optionalMember_last, String.reduceEq, if_true, if_false]
  refine bind_eq_ok (nameAt_str h.named _) ?_
  refine bind_eq_ok (visibilityAt_word visibility _) ?_
  refine bind_eq_ok (optionalTypeAt_map h.returns _) ?_
  refine bind_eq_ok (paramsAt_map h.params _) ?_
  refine bind_eq_ok (stringsAt_ofStrings body _) ?_
  cases chain with
  | none => rfl
  | some c =>
    refine bind_eq_ok (a := some c) ?_ rfl
    show some <$> chainAt _ (ofChain c) = _
    rw [chainAt_ofChain]
    rfl

theorem aliasAt_ofAlias {a : Alias} (h : IsSignature scope a.name a.returnType a.params)
    (place : Pointer) : aliasAt scope place (ofAlias a) = .ok a := by
  refine bind_eq_ok rfl ?_
  simp only [List.cons_append, List.nil_append, getD_cons, getD_optionalMember_last,
    String.reduceEq, if_true, if_false]
  refine bind_eq_ok (nameAt_str h.named _) ?_
  refine bind_eq_ok (optionalTypeAt_map h.returns _) ?_
  exact bind_eq_ok (paramsAt_map h.params _) rfl

/-! #### Declarations -/

theorem aliasNames_map {aliases : List Alias} (h : ∀ a ∈ aliases, a.name ≠ "")
    (place : Pointer) :
    aliasNames place (aliases.map ofAlias) = .ok (aliases.map (·.name)) := by
  induction aliases with
  | nil => rfl
  | cons a aliases ih =>
    refine bind_eq_ok (nameAt_str (h a List.mem_cons_self) place) ?_
    exact bind_eq_ok (ih fun b hb => h b (List.mem_cons_of_mem a hb)) rfl

theorem classPartAt_members {d : Declaration} {part : ClassPart}
    (hshape : d.shape = .classShape part) (h : IsWellFormedPart scope part) (place : Pointer) :
    classPartAt scope place (declarationMembers d) = .ok part := by
  unfold classPartAt declarationMembers
  simp only [hshape, ofShape, List.cons_append, List.nil_append, getD_cons,
    getD_optionalMember_last, String.reduceEq, if_true, if_false]
  refine bind_eq_ok rfl ?_
  refine bind_eq_ok (each_map (fun f hf => fieldAt_ofField (h.fields f hf)) _) ?_
  refine bind_eq_ok (optionalTypeAt_map h.base _) ?_
  refine bind_eq_ok rfl ?_
  exact bind_eq_ok (each_map (fun t ht => typeAt_ofType t (h.interfaces t ht)) _) rfl

theorem shapeAt_members {d : Declaration}
    (h : ∀ part, d.shape = .classShape part → IsWellFormedPart scope part) (place : Pointer) :
    shapeAt scope place (declarationMembers d) = .ok d.shape := by
  have hkind : (declarationMembers d).getD "kind" (.str "class") = .str (shapeWord d.shape) := rfl
  unfold shapeAt
  rw [hkind]
  cases hshape : d.shape with
  | interfaceShape => rfl
  | classShape part =>
    show Shape.classShape <$> classPartAt scope place (declarationMembers d) = _
    rw [classPartAt_members hshape (h part hshape)]
    rfl

theorem declarationAt_ofDeclaration {d : Declaration} (h : IsWellFormed d) (place : Pointer) :
    declarationAt place (ofDeclaration d) = .ok d := by
  have hnames := aliasNames_map (fun a ha => (h.aliases a ha).named) (place.key "functionTypes")
  have hshape := shapeAt_members h.part place
  refine bind_eq_ok (a := declarationMembers d) rfl ?_
  refine bind_eq_ok (nameAt_str h.named _) ?_
  refine bind_eq_ok (a := d.aliases.map ofAlias) rfl ?_
  refine bind_eq_ok hnames ?_
  refine bind_eq_ok (packageAt_ofStrings d.package _) ?_
  refine bind_eq_ok (stringsAt_ofStrings d.tags _) ?_
  refine bind_eq_ok (each_map (fun a ha => aliasAt_ofAlias (h.aliases a ha)) _) ?_
  refine bind_eq_ok (a := d.functions.map ofFunction) rfl ?_
  refine bind_eq_ok (each_map (fun f hf => functionAt_ofFunction (h.functions f hf)) _) ?_
  exact bind_eq_ok hshape rfl

end Readers

/-! ### Documents -/

/-- Well-formed declarations are loaded from the document that was written of them, each as it
was and in the same order. -/
theorem load_ofDeclarations (ds : List Declaration) (h : ∀ d ∈ ds, IsWellFormed d) :
    load (ofDeclarations ds) = .ok ds :=
  each_map (fun d hd => declarationAt_ofDeclaration (h d hd)) _

/-- A class with a function type that is used as an argument of a field's type, package segments
that no dotted text gives, and an initializer that is there but empty; and an interface. -/
def genericSample : List Declaration :=
  [{ name := "Queue", package := ["a.b", ""], tags := ["ConvertOnce", "ConvertOnce"]
     aliases := [{ name := "Visit", returnType := some { name := "void", kind := .void } }]
     functions :=
      [{ name := "Queue", isConstructor := true, body := [""]
         chain := some ⟨.sameClass, ["1", ""]⟩ }]
     shape := .classShape
      { fields :=
          [{ name := "visits", visibility := .priv, initializer := some ""
             type := some
              { name := "Vector", package := ["flash"]
                args := [{ name := "Visit", kind := .functionType }, .ofPrimitive "int"] } }]
        isFinal := true } },
    { name := "IQueue", shape := .interfaceShape }]

theorem load_genericSample :
    (∀ d ∈ genericSample, IsWellFormed d) ∧
      load (ofDeclarations genericSample) = .ok genericSample := by
  have hvisit : IsResolved ["Visit"] { name := "Visit", kind := .functionType } :=
    .mk (by decide) (.functionType (by decide) (by decide)) (by simp)
  have hint : IsResolved ["Visit"] (.ofPrimitive "int") :=
    .mk (by decide) (.primitive (by decide)) (by simp)
  have hvoid : IsResolved ["Visit"] { name := "void", kind := .void } :=
    .mk (by decide) (.void rfl) (by simp)
  have hformed : ∀ d ∈ genericSample, IsWellFormed d := by
    simp only [genericSample, List.forall_mem_cons]
    refine ⟨⟨by decide, ?_, ?_, ?_⟩, ⟨by decide, by simp, by simp, by simp⟩, by simp⟩
    · simp only [List.forall_mem_singleton]
      exact ⟨by decide, by rintro t ⟨⟩; exact hvoid, by simp⟩
    · simp only [List.forall_mem_singleton]
      exact ⟨by decide, by simp, by simp⟩
    · rintro part ⟨⟩
      refine ⟨?_, by simp, by simp⟩
      simp only [List.forall_mem_singleton]
      refine ⟨by decide, _, rfl, .mk (by decide) (.packaged (by decide)) ?_⟩
      simp only [List.forall_mem_cons]
      exact ⟨hvisit, hint, by simp⟩
  exact ⟨hformed, load_ofDeclarations genericSample hformed⟩

end SharpEmit.Document
