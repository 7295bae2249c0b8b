/-
SharpEmit/Proofs/Document/Resolution.lean

The references of a declaration that was loaded.  Readers make references in one way only,
by resolving a name, so what every resolved reference has is true of all that a reader
gives (`Gives`), at any depth of arguments and for every part of a declaration.  The names
are resolved beside the function types of the element at hand, those that come later included
(`declaredNames`, `declarationAt_references`).

References within references are listed by a walk (`withArgs`) that takes the arguments of
each before what follows it; a property that passes from a reference to its arguments holds
throughout the walk (`withArgs_forall`).  So a loaded declaration lacks no reference
(`lacksReference_of_load`).
-/
import SharpEmit.Proofs.Document.Failure

namespace SharpEmit

/-- What passes from references to their arguments holds of all within a list of them. -/
theorem TypeRef.withArgs_forall {P : TypeRef → Prop} (hargs : ∀ t, P t → ∀ u ∈ t.args, P u)
    (pending : List TypeRef) (h : ∀ t ∈ pending, P t) : ∀ t ∈ withArgs pending, P t := by
  -- along the walk: what is pending keeps the property when a reference makes way for its arguments
  fun_induction withArgs pending with
  | case1 => simp
  | case2 t pending ih =>
    have ht : P t := h t List.mem_cons_self
    have hrest : ∀ u ∈ t.args ++ pending, P u := by
      intro u hu
      rcases List.mem_append.mp hu with hu | hu
      · exact hargs t ht u hu
      · exact h u (List.mem_cons_of_mem t hu)
    intro u hu
    rcases List.mem_cons.mp hu with rfl | hu
    · exact ht
    · exact ih hrest u hu

namespace Document

/-! ### What readings give -/

section Gives

variable {α β : Type} {P : α → Prop} {Q : β → Prop}

/-- If a reading gives something, it has a property. -/
def Gives (P : α → Prop) (r : Loaded α) : Prop := ∀ a, r = .ok a → P a

theorem Gives.ok {a : α} (h : P a) : Gives P (.ok a : Loaded α) := by
  intro b hb
  cases hb
  exact h

theorem Gives.error (e : LoadError) : Gives P (.error e : Loaded α) := by
  intro a ha
  cases ha

theorem Gives.bind {r : Loaded α} {next : α → Loaded β} (h : Gives P r)
    (hnext : ∀ a, P a → Gives Q (next a)) : Gives Q (r >>= next) := by
  cases r with
  | error e => exact .error e
  | ok a => exact hnext a (h a rfl)

/-- After a reading of which nothing needs to be known. -/
theorem Gives.after (r : Loaded α) {next : α → Loaded β} (hnext : ∀ a, Gives Q (next a)) :
    Gives Q (r >>= next) := by
  cases r with
  | error e => exact .error e
  | ok a => exact hnext a

theorem Gives.map {r : Loaded α} {f : α → β} (h : Gives P r) (hf : ∀ a, P a → Q (f a)) :
    Gives Q (f <$> r) := by
  cases r with
  | error e => exact .error e
  | ok a => exact .ok (hf a (h a rfl))

theorem eachFrom_gives {read : Pointer → Json → Loaded α}
    (h : ∀ place item, Gives P (read place item)) (place : Pointer) (i : Nat)
    (items : List Json) : Gives (∀ a ∈ ·, P a) (eachFrom read place i items) := by
  induction items generalizing i with
  | nil => exact .ok (by simp)
  | cons item rest ih =>
    refine (h _ item).bind fun a ha => ?_
    refine (ih (i + 1)).bind fun as has => .ok ?_
    exact List.forall_mem_cons.mpr ⟨ha, has⟩

theorem each_gives {read : Pointer → Json → Loaded α}
    (h : ∀ place item, Gives P (read place item)) (place : Pointer) (items : List Json) :
    Gives (∀ a ∈ ·, P a) (each read place items) :=
  eachFrom_gives h place 0 items

end Gives

/-! ### Simple values -/

theorem objectAt_gives (place : Pointer) (value : Json) :
    Gives (fun members => value = .obj members) (objectAt place value) :=
  fun _ h => eq_of_objectAt h

theorem itemsOf_gives (value : Json) :
    Gives (fun items => value.items = .ok items) (itemsOf value) := by
  unfold itemsOf
  cases value.items with
  | error scalar => exact .error _
  | ok items => exact .ok rfl

theorem lookup_of_getD {members : Members} {key : String} {default value : Json}
    (h : members.getD key default = value) (hdefault : default ≠ value) :
    Json.lookup key members = some value := by
  unfold Members.getD at h
  cases hlookup : Json.lookup key members with
  | none =>
    rw [hlookup] at h
    exact absurd h hdefault
  | some found =>
    rw [hlookup] at h
    exact congrArg some h

theorem eq_of_nameAt {place : Pointer} {value : Json} {name : String}
    (h : nameAt place value = .ok name) : value = .str name := by
  cases value with
  | str s =>
    have hs : (if s = "" then reject .notName place else .ok s) = Except.ok name := h
    split at hs
    · cases hs
    · exact congrArg Json.str (Except.ok.inj hs)
  | _ => cases h

/-- The name among members. -/
def Named (members : Members) (name : String) : Prop :=
  Json.lookup "name" members = some (.str name)

theorem nameAt_gives (place : Pointer) (members : Members) :
    Gives (Named members) (nameAt place (members.getD "name" .null)) :=
  fun _ h => lookup_of_getD (eq_of_nameAt h) (by simp)

/-! ### References -/

/-- A reference whose kind follows from its name and package beside function types of the
given names, and so for its arguments. -/
inductive Follows (scope : List String) : TypeRef → Prop
  | mk {name package args} : (∀ t ∈ args, Follows scope t) →
      Follows scope (resolve scope name package args)

theorem Follows.args {scope : List String} {t : TypeRef} (h : Follows scope t) :
    ∀ u ∈ t.args, Follows scope u := by
  cases h with
  | mk hargs => exact hargs

theorem Follows.kind_eq {scope : List String} {t : TypeRef} (h : Follows scope t) :
    t.kind = kindOf scope t.name t.package := by
  cases h with
  | mk _ => rfl

theorem kindOf_ne_absent (scope : List String) (name : String) (package : List String) :
    kindOf scope name package ≠ .absent := by
  unfold kindOf
  repeat' split
  all_goals simp

section Readers

variable {scope : List String}

theorem follows_resolveDotted (s : String) : Follows scope (resolveDotted scope s) :=
  .mk (by simp)

mutual

/-- A type is resolved with its arguments. -/
theorem typeAt_gives (place : Pointer) : ∀ value, Gives (Follows scope) (typeAt scope place value)
  | .str s => by
    rw [typeAt]
    exact .ok (follows_resolveDotted s)
  | .obj members => by
    rw [typeAt]
    refine .after _ fun name => ?_
    refine (argsAt_gives (place.key "args") members).bind fun args hargs => ?_
    exact .after _ fun package => .ok (.mk hargs)
  | .null | .bool _ | .int _ | .real _ | .arr _ => by
    rw [typeAt]
    · exact .error _
    all_goals simp

theorem argsAt_gives (place : Pointer) :
    ∀ members : Members, Gives (∀ t ∈ ·, Follows scope t) (argsAt scope place members)
  | [] => by
    rw [argsAt]
    exact .ok (by simp)
  | (key, value) :: rest => by
    rw [argsAt]
    split
    · exact argItemsAt_gives place value
    · exact argsAt_gives place rest

theorem argItemsAt_gives (place : Pointer) :
    ∀ value, Gives (∀ t ∈ ·, Follows scope t) (argItemsAt scope place value)
  | .arr items => by
    rw [argItemsAt]
    exact typesFrom_gives place 0 items
  | .str s => by
    rw [argItemsAt]
    exact .ok (List.forall_mem_map.mpr fun c _ => follows_resolveDotted _)
  | .obj members => by
    rw [argItemsAt]
    exact .ok (List.forall_mem_map.mpr fun m _ => follows_resolveDotted _)
  | .null | .bool _ | .int _ | .real _ => by
    rw [argItemsAt]
    · exact .after _ fun _ => .ok (by simp)
    all_goals simp

theorem typesFrom_gives (place : Pointer) (i : Nat) :
    ∀ items, Gives (∀ t ∈ ·, Follows scope t) (typesFrom scope place i items)
  | [] => by
    rw [typesFrom]
    exact .ok (by simp)
  | item :: rest => by
    rw [typesFrom]
    refine (typeAt_gives _ item).bind fun t ht => ?_
    refine (typesFrom_gives place (i + 1) rest).bind fun ts hts => .ok ?_
    exact List.forall_mem_cons.mpr ⟨ht, hts⟩

end

theorem optionalTypeAt_gives (place : Pointer) (value : Json) :
    Gives (∀ t ∈ ·, Follows scope t) (optionalTypeAt scope place value) := by
  unfold optionalTypeAt
  split
  · exact (typeAt_gives place value).map fun t ht => by simpa using ht
  · exact .ok (by simp)

/-! #### Members -/

/-- The types of the parameters that were read. -/
theorem paramsAt_gives (place : Pointer) (value : Json) :
    Gives (∀ t ∈ Declaration.paramTypes ·, Follows scope t) (paramsAt scope place value) := by
  have hparam : ∀ place value,
      Gives (fun p : Param => ∀ t ∈ p.type, Follows scope t) (paramAt scope place value) := by
    intro place value
    refine .after _ fun members => .after _ fun name => ?_
    exact (typeAt_gives _ _).bind fun t ht => .ok (by simpa using ht)
  refine .after _ fun items => ?_
  intro params hparams t ht
  obtain ⟨p, hp, htype⟩ := List.mem_filterMap.mp ht
  exact each_gives hparam place items params hparams p hp t htype

theorem fieldAt_gives (place : Pointer) (value : Json) :
    Gives (fun f : Field => ∀ t ∈ f.type, Follows scope t) (fieldAt scope place value) := by
  refine .after _ fun members => .after _ fun name => ?_
  refine (typeAt_gives _ _).bind fun t ht => ?_
  exact .after _ fun visibility => .after _ fun initializer => .ok (by simpa using ht)

theorem functionAt_gives (place : Pointer) (value : Json) :
    Gives (fun f : Function =>
        ∀ t ∈ f.returnType.toList ++ Declaration.paramTypes f.params, Follows scope t)
      (functionAt scope place value) := by
  refine .after _ fun members => .after _ fun name => .after _ fun visibility => ?_
  refine (optionalTypeAt_gives _ _).bind fun returnType hreturn => ?_
  refine (paramsAt_gives _ _).bind fun params hparams => ?_
  refine .after _ fun body => ?_
  dsimp only
  -- whether a call is read or not, the types are those read before
  split
  all_goals
    refine .after _ fun chain => .ok ?_
    exact List.forall_mem_append.mpr ⟨by simpa using hreturn, hparams⟩

theorem aliasAt_gives (place : Pointer) (value : Json) :
    Gives (fun a : Alias =>
        ∀ t ∈ a.returnType.toList ++ Declaration.paramTypes a.params, Follows scope t)
      (aliasAt scope place value) := by
  refine .after _ fun members => .after _ fun name => ?_
  refine (optionalTypeAt_gives _ _).bind fun returnType hreturn => ?_
  refine (paramsAt_gives _ _).bind fun params hparams => .ok ?_
  exact List.forall_mem_append.mpr ⟨by simpa using hreturn, hparams⟩

/-! #### Declarations -/

theorem shapeAt_gives (place : Pointer) (members : Members) :
    Gives (fun shape : Shape => ∀ t ∈ shape.types, Follows scope t)
      (shapeAt scope place members) := by
  have hpart : Gives (fun part : ClassPart => ∀ t ∈ (Shape.classShape part).types, Follows scope t)
      (classPartAt scope place members) := by
    refine .after _ fun items => (each_gives fieldAt_gives _ _).bind fun fields hfields => ?_
    refine (optionalTypeAt_gives _ _).bind fun base hbase => ?_
    refine .after _ fun items => (each_gives typeAt_gives _ _).bind fun interfaces hinterfaces => ?_
    refine .ok (List.forall_mem_append.mpr ⟨List.forall_mem_append.mpr ⟨?_, hinterfaces⟩, ?_⟩)
    · simpa using hbase
    · intro t ht
      obtain ⟨f, hf, htype⟩ := List.mem_filterMap.mp ht
      exact hfields f hf t htype
  unfold shapeAt
  split
  · exact .ok (by simp [Shape.types])
  · exact hpart.map fun part h => h
  · exact .error _

end Readers

/-! ### Function types of an element -/

/-- The name of an entry for a function type. -/
def entryName? (entry : Json) : Option String :=
  match entry.get? "name" with
  | some (.str name) => some name
  | _ => none

/-- The names of the function types that an element declares itself. -/
def declaredNames (element : Json) : List String :=
  match element.get? "functionTypes" with
  | some (.arr entries) => entries.filterMap entryName?
  | _ => []

theorem aliasNames_gives (place : Pointer) (items : List Json) :
    Gives (fun names => names = items.filterMap entryName?) (aliasNames place items) := by
  induction items with
  | nil => exact .ok rfl
  | cons item rest ih =>
    cases item with
    | obj members =>
      refine (nameAt_gives place members).bind fun name hname => ?_
      refine Gives.bind ih fun names hnames => .ok ?_
      have hentry : entryName? (.obj members) = some name := by
        rw [entryName?, show (Json.obj members).get? "name" = some (.str name) from hname]
      rw [List.filterMap_cons, hentry, hnames]
    | _ => exact ih

/-- What declares no function type is met as a text, or not at all. -/
theorem declaredNames_eq {members : Members} {items : List Json}
    (h : (members.getD "functionTypes" (.arr [])).items = .ok items) :
    declaredNames (.obj members) = items.filterMap entryName? := by
  unfold Members.getD at h
  rw [declaredNames, show (Json.obj members).get? "functionTypes" =
    Json.lookup "functionTypes" members from rfl]
  cases hlookup : Json.lookup "functionTypes" members with
  | none =>
    rw [hlookup] at h
    cases h
    rfl
  | some value =>
    rw [hlookup] at h
    cases value with
    | arr entries =>
      cases h
      rfl
    | str s =>
      cases h
      simp [List.filterMap_map, entryName?, Json.get?, Function.comp_def]
    | obj keys =>
      cases h
      simp [List.filterMap_map, entryName?, Json.get?, Function.comp_def]
    | _ => cases h

/-- The references in the signatures of a declaration are resolved beside the function types
that its element declares. -/
theorem declarationAt_gives (place : Pointer) (value : Json) :
    Gives (fun d : Declaration => ∀ t ∈ d.signatureTypes, Follows (declaredNames value) t)
      (declarationAt place value) := by
  refine (objectAt_gives place value).bind fun members hvalue => .after _ fun name => ?_
  refine (itemsOf_gives _).bind fun items hitems => ?_
  refine (aliasNames_gives _ items).bind fun scope hscope => ?_
  rw [hvalue, declaredNames_eq hitems, ← hscope]
  refine .after _ fun package => .after _ fun tags => ?_
  refine (each_gives aliasAt_gives _ _).bind fun aliases haliases => ?_
  refine .after _ fun items => (each_gives functionAt_gives _ _).bind fun functions hfunctions => ?_
  refine (shapeAt_gives _ _).bind fun shape hshape => .ok ?_
  refine List.forall_mem_append.mpr ⟨List.forall_mem_append.mpr ⟨?_, hshape⟩, ?_⟩
  · exact List.forall_mem_flatMap.mpr haliases
  · exact List.forall_mem_flatMap.mpr hfunctions

theorem declarationAt_references (place : Pointer) (value : Json) :
    Gives (fun d => ∀ t ∈ Declaration.references d, Follows (declaredNames value) t)
      (declarationAt place value) :=
  fun d hd => TypeRef.withArgs_forall (fun _ ht => ht.args) _ (declarationAt_gives place value d hd)

theorem load_gives_follows (document : Json) :
    Gives (∀ d ∈ ·, ∃ scope, ∀ t ∈ Declaration.references d, Follows scope t)
      (load document) := by
  unfold load
  split
  · exact each_gives (fun place value d hd => ⟨_, declarationAt_references place value d hd⟩) _ _
  · exact .error _

/-- What is loaded lacks no reference. -/
theorem lacksReference_of_load {document : Json} {ds : List Declaration} {d : Declaration}
    (hload : load document = .ok ds) (hd : d ∈ ds) : d.lacksReference = false := by
  obtain ⟨scope, hscope⟩ := load_gives_follows document ds hload d hd
  rw [Declaration.lacksReference, List.any_eq_false]
  intro t ht
  rw [decide_eq_true_eq, (hscope t ht).kind_eq]
  exact kindOf_ne_absent scope t.name t.package

end Document

end SharpEmit
