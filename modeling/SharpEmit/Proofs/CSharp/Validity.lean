/-
SharpEmit/Proofs/CSharp/Validity.lean

Which declarations can be rendered.  There are seven expectations on a declaration, looked
at in a fixed order (`expectations`).  `Breaks` says in terms of the declaration alone when
one is not met, and `Reports` what is said of it then: the first member that is at fault,
and how.  Each expectation has a check of its own (`check`), which decides it and finds the
report (`check_decides`).

Main result: apart from declarations in which a reference is missing, rendering fails just on
those that break an expectation, and reports the first one that is broken
(`render_fails_iff_breaks`).  A missing reference stands for what the lists of a declaration
do not hold; no loaded declaration has one.
-/
import Mathlib.Data.List.Nodup
import SharpEmit.CSharp.Target
import SharpEmit.Conversion.Single
import SharpEmit.Proofs.CSharp.Initializers
import SharpEmit.Proofs.Document.Resolution

namespace SharpEmit.CSharp

open Conversion (Failure generate)

/-! ### The first of its kind in a list -/

/-- The first element with a property. -/
def IsFirst {α : Type} (p : α → Prop) (xs : List α) (x : α) : Prop :=
  ∃ before after, xs = before ++ x :: after ∧ p x ∧ ∀ y ∈ before, ¬ p y

theorem IsFirst.mem {α : Type} {p : α → Prop} {xs : List α} {x : α} (h : IsFirst p xs x) :
    x ∈ xs := by
  obtain ⟨before, after, rfl, -⟩ := h
  exact List.mem_append_right before List.mem_cons_self

theorem IsFirst.prop {α : Type} {p : α → Prop} {xs : List α} {x : α} (h : IsFirst p xs x) :
    p x := by
  obtain ⟨before, after, -, hx, -⟩ := h
  exact hx

/-- A test that is passed by what has a property finds the first. -/
theorem isFirst_of_find? {α : Type} {p : α → Prop} {test : α → Bool} {xs : List α} {x : α}
    (htest : ∀ x, test x = true ↔ p x) (h : xs.find? test = some x) : IsFirst p xs x := by
  obtain ⟨hx, before, after, hxs, hbefore⟩ := List.find?_eq_some_iff_append.mp h
  refine ⟨before, after, hxs, (htest x).mp hx, fun y hy => ?_⟩
  rw [← htest y, Bool.not_eq_true, ← Bool.not_eq_true']
  exact hbefore y hy

/-- What has a property is what a finder finds something in. -/
theorem isFirst_of_findSome? {α β : Type} {p : α → Prop} {finder : α → Option β} {xs : List α}
    {b : β} (hfinder : ∀ x, finder x = none ↔ ¬ p x) (h : xs.findSome? finder = some b) :
    ∃ x, finder x = some b ∧ IsFirst p xs x := by
  obtain ⟨before, x, after, hxs, hx, hbefore⟩ := List.findSome?_eq_some_iff.mp h
  refine ⟨x, hx, before, after, hxs, ?_, fun y hy => (hfinder y).mp (hbefore y hy)⟩
  by_contra hnot
  rw [(hfinder x).mpr hnot] at hx
  cases hx

/-! ### Expectations -/

/-- What is expected of a declaration. -/
inductive Expectation where
  /-- No interface is implemented twice. -/
  | distinctInterfaces
  /-- Every field has a type. -/
  | typedFields
  /-- Every parameter of a function has a type. -/
  | typedParams
  /-- No member has the name of the method that runs deferred initializers. -/
  | freeName
  /-- Deferred initializers have a constructor to run them. -/
  | initializersRun
  /-- A constant of a primitive type has a value. -/
  | valuedConstants
  /-- A constructor returns no value and is no accessor. -/
  | plainConstructors
deriving DecidableEq, Repr

/-- The expectations in the order in which they are looked at. -/
def expectations : List Expectation :=
  [.distinctInterfaces, .typedFields, .typedParams, .freeName, .initializersRun,
    .valuedConstants, .plainConstructors]

/-- A constant of a primitive type without a value. -/
def IsValueless (f : Field) : Prop :=
  f.isConst = true ∧ (∃ t, f.type = some t ∧ t.kind = .primitive) ∧ f.initializer = none

/-- The function is said to return something other than `void`. -/
def ReturnsValue (f : Function) : Prop := ∃ t, f.returnType = some t ∧ t.kind ≠ .void

/-- A constructor that returns a value or is an accessor. -/
def IsBadConstructor (f : Function) : Prop :=
  f.isConstructor = true ∧ (ReturnsValue f ∨ f.isGetter = true ∨ f.isSetter = true)

/-- The declaration does not meet an expectation.  All but one are on classes only. -/
inductive Breaks (d : Declaration) : Expectation → Prop
  | distinctInterfaces {part t} {i j : Nat} : d.shape = .classShape part → i < j →
      part.interfaces[i]? = some t → part.interfaces[j]? = some t → Breaks d .distinctInterfaces
  | typedFields {part f} : d.shape = .classShape part → f ∈ part.fields → f.type = none →
      Breaks d .typedFields
  | typedParams {f p} : f ∈ d.functions → p ∈ f.params → p.type = none → Breaks d .typedParams
  | freeName {part} : d.shape = .classShape part →
      ((∃ f ∈ part.fields, f.name = "__internalInitializeFields") ∨
        ∃ f ∈ d.functions, f.name = "__internalInitializeFields") → Breaks d .freeName
  | initializersRun {part f} : d.shape = .classShape part → f ∈ part.fields → IsDeferred f →
      (∀ g ∈ d.functions, g.isConstructor = false) → Breaks d .initializersRun
  | valuedConstants {part f} : d.shape = .classShape part → f ∈ part.fields → IsValueless f →
      Breaks d .valuedConstants
  | plainConstructors {part f} : d.shape = .classShape part → f ∈ d.functions →
      IsBadConstructor f → Breaks d .plainConstructors

/-- What is said of an expectation that is not met, with the member that it is said of: the
first that is at fault. -/
inductive Reports (d : Declaration) : Expectation → Option String → Violation → Prop
  | distinctInterfaces {part before t after} : d.shape = .classShape part →
      part.interfaces = before ++ t :: after → before.Nodup → t ∈ before →
      Reports d .distinctInterfaces none (.repeatedInterface t)
  | typedFields {part f} : d.shape = .classShape part →
      IsFirst (fun f : Field => f.type = none) part.fields f →
      Reports d .typedFields (some f.name) (.untypedField f.name)
  | typedParams {f p} :
      IsFirst (fun f : Function => ∃ p ∈ f.params, p.type = none) d.functions f →
      IsFirst (fun p : Param => p.type = none) f.params p →
      Reports d .typedParams (some f.name) (.untypedParam f.name p.name)
  | freeName : Reports d .freeName (some "__internalInitializeFields") .reservedName
  | initializersRun {part} : d.shape = .classShape part →
      Reports d .initializersRun none
        (.noConstructor ((deferredFields part.fields).map (·.name)))
  | valuedConstants {part f} : d.shape = .classShape part → IsFirst IsValueless part.fields f →
      Reports d .valuedConstants (some f.name) (.constWithoutValue f.name)
  | constructorReturns {f} : IsFirst IsBadConstructor d.functions f → ReturnsValue f →
      Reports d .plainConstructors (some f.name) (.constructorReturns f.name)
  | constructorIsAccessor {f} : IsFirst IsBadConstructor d.functions f → ¬ ReturnsValue f →
      Reports d .plainConstructors (some f.name) (.constructorIsAccessor f.name)

/-! ### Checks -/

/-- The check of an expectation. -/
def check (d : Declaration) (e : Expectation) : Option Violation :=
  match e, d.shape with
  | .typedParams, _ => untypedParam? d.functions
  | _, .interfaceShape => none
  | .distinctInterfaces, .classShape part => repeatedInterface? part.interfaces
  | .typedFields, .classShape part => untypedField? part.fields
  | .freeName, .classShape part => reservedMember? part.fields d.functions
  | .initializersRun, .classShape part =>
    missingConstructor? (deferredFields part.fields) d.constructors
  | .valuedConstants, .classShape part => part.fields.findSome? valuelessConst?
  | .plainConstructors, .classShape _ => d.functions.findSome? badFunction?

/-- The first violation is found by going through the checks. -/
theorem violation?_eq_findSome? (d : Declaration) :
    violation? d = expectations.findSome? (check d) := by
  have hcons : ∀ e rest, List.findSome? (check d) (e :: rest) =
      (check d e).or (rest.findSome? (check d)) := by
    intro e rest
    rw [List.findSome?_cons]
    cases check d e <;> rfl
  unfold violation? expectations
  simp only [hcons, List.findSome?_nil]
  cases hshape : d.shape with
  | interfaceShape => simp only [check, hshape, Option.none_or, Option.or_none]
  | classShape part =>
    simp only [check, hshape, Option.or_none, Option.orElse_eq_orElse, Option.orElse_eq_or]

/-- A check decides whether an expectation is broken, and finds a report if so. -/
def Decides (broken : Prop) (report : Violation → Prop) (found : Option Violation) : Prop :=
  (found = none → ¬ broken) ∧ ∀ v, found = some v → broken ∧ report v

/-! #### Interfaces -/

/-- The walk stops at the first reference that has come before, if there is one. -/
theorem repeated?_spec (seen ts : List TypeRef) (hseen : seen.Nodup) :
    (repeated? seen ts = none → (seen.reverse ++ ts).Nodup) ∧
    ∀ t, repeated? seen ts = some t → ∃ before after,
      seen.reverse ++ ts = before ++ t :: after ∧ before.Nodup ∧ t ∈ before := by
  induction ts generalizing seen with
  | nil => simpa [repeated?] using List.nodup_reverse.mpr hseen
  | cons u rest ih =>
    rw [repeated?]
    split
    · rename_i hu
      refine ⟨fun h => (by cases h), ?_⟩
      rintro t ⟨⟩
      exact ⟨seen.reverse, rest, rfl, List.nodup_reverse.mpr hseen, List.mem_reverse.mpr hu⟩
    · -- what has been seen is the part of the list before the rest, backwards
      rename_i hu
      have hcons : (u :: seen).reverse ++ rest = seen.reverse ++ u :: rest := by simp
      have hnext := ih (u :: seen) (List.nodup_cons.mpr ⟨hu, hseen⟩)
      rwa [hcons] at hnext

theorem repeatedInterface?_decides {d : Declaration} {part : ClassPart}
    (hshape : d.shape = .classShape part) :
    Decides (Breaks d .distinctInterfaces)
      (fun v => Reports d .distinctInterfaces v.member v) (repeatedInterface? part.interfaces) := by
  obtain ⟨hnone, hsome⟩ := repeated?_spec [] part.interfaces List.nodup_nil
  rw [List.reverse_nil, List.nil_append] at hnone hsome
  constructor
  · intro h hbreaks
    have hnodup := hnone (Option.map_eq_none_iff.mp h)
    cases hbreaks with
    | distinctInterfaces hshape' hij hi hj =>
      obtain rfl := Shape.classShape.inj (hshape.symm.trans hshape')
      obtain ⟨hlength, -⟩ := List.getElem?_eq_some_iff.mp hj
      exact List.nodup_iff_getElem?_ne_getElem?.mp hnodup _ _ hij hlength (hi.trans hj.symm)
  · intro v h
    obtain ⟨t, ht, rfl⟩ := Option.map_eq_some_iff.mp h
    obtain ⟨before, after, hsplit, hnodup, hmem⟩ := hsome t ht
    refine ⟨?_, .distinctInterfaces hshape hsplit hnodup hmem⟩
    obtain ⟨i, hi, hget⟩ := List.mem_iff_getElem.mp hmem
    refine @Breaks.distinctInterfaces d part t i before.length hshape hi ?_ ?_
    · rw [hsplit, List.getElem?_append_left hi, List.getElem?_eq_getElem hi, hget]
    · rw [hsplit, List.getElem?_append_right (Nat.le_refl _), Nat.sub_self]
      rfl

/-! #### Types of members -/

theorem untypedField?_decides {d : Declaration} {part : ClassPart}
    (hshape : d.shape = .classShape part) :
    Decides (Breaks d .typedFields) (fun v => Reports d .typedFields v.member v)
      (untypedField? part.fields) := by
  constructor
  · intro h hbreaks
    cases hbreaks with
    | typedFields hshape' hf htype =>
      obtain rfl := Shape.classShape.inj (hshape.symm.trans hshape')
      have hall := List.find?_eq_none.mp (Option.map_eq_none_iff.mp h) _ hf
      exact hall (Option.isNone_iff_eq_none.mpr htype)
  · intro v h
    obtain ⟨f, hf, rfl⟩ := Option.map_eq_some_iff.mp h
    have hfirst : IsFirst (fun f : Field => f.type = none) part.fields f :=
      isFirst_of_find? (fun f => Option.isNone_iff_eq_none) hf
    exact ⟨.typedFields hshape hfirst.mem hfirst.prop, .typedFields hshape hfirst⟩

theorem untypedParam?_decides (d : Declaration) :
    Decides (Breaks d .typedParams) (fun v => Reports d .typedParams v.member v)
      (untypedParam? d.functions) := by
  constructor
  · intro h hbreaks
    cases hbreaks with
    | typedParams hf hp htype =>
      have hparams := List.findSome?_eq_none_iff.mp h _ hf
      have hall := List.find?_eq_none.mp (Option.map_eq_none_iff.mp hparams) _ hp
      exact hall (Option.isNone_iff_eq_none.mpr htype)
  · intro v h
    have hfinder : ∀ f : Function,
        ((f.params.find? (·.type.isNone)).map fun p => Violation.untypedParam f.name p.name) =
          none ↔ ¬ ∃ p ∈ f.params, p.type = none := by
      intro f
      simp [List.find?_eq_none]
    obtain ⟨f, hf, hfirst⟩ := isFirst_of_findSome? hfinder h
    obtain ⟨p, hp, rfl⟩ := Option.map_eq_some_iff.mp hf
    have hparam : IsFirst (fun p : Param => p.type = none) f.params p :=
      isFirst_of_find? (fun p => Option.isNone_iff_eq_none) hp
    exact ⟨.typedParams hfirst.mem hparam.mem hparam.prop, .typedParams hfirst hparam⟩

/-! #### The initializer method -/

theorem reservedMember?_decides {d : Declaration} {part : ClassPart}
    (hshape : d.shape = .classShape part) :
    Decides (Breaks d .freeName) (fun v => Reports d .freeName v.member v)
      (reservedMember? part.fields d.functions) := by
  have hmem : initializerName ∈ part.fields.map (·.name) ++ d.functions.map (·.name) ↔
      (∃ f ∈ part.fields, f.name = initializerName) ∨
        ∃ f ∈ d.functions, f.name = initializerName := by
    rw [List.mem_append, List.mem_map, List.mem_map]
  unfold reservedMember?
  split
  · rename_i hreserved
    refine ⟨fun h => (by cases h), ?_⟩
    rintro v ⟨⟩
    exact ⟨.freeName hshape (hmem.mp hreserved), .freeName⟩
  · rename_i hreserved
    refine ⟨fun _ hbreaks => ?_, fun v h => (by cases h)⟩
    cases hbreaks with
    | freeName hshape' hnamed =>
      obtain rfl := Shape.classShape.inj (hshape.symm.trans hshape')
      exact hreserved (hmem.mpr hnamed)

theorem missingConstructor?_decides {d : Declaration} {part : ClassPart}
    (hshape : d.shape = .classShape part) :
    Decides (Breaks d .initializersRun) (fun v => Reports d .initializersRun v.member v)
      (missingConstructor? (deferredFields part.fields) d.constructors) := by
  have hdeferred : (!(deferredFields part.fields).isEmpty) = true ↔
      ∃ f ∈ part.fields, IsDeferred f := by
    rw [exists_isDeferred_iff, Bool.not_eq_true', List.isEmpty_eq_false_iff]
  have hnone : d.constructors.isEmpty = true ↔ ∀ g ∈ d.functions, g.isConstructor = false := by
    simp [Declaration.constructors]
  unfold missingConstructor?
  split
  · rename_i hmissing
    rw [Bool.and_eq_true, hdeferred, hnone] at hmissing
    obtain ⟨⟨f, hf, hf'⟩, hfunctions⟩ := hmissing
    refine ⟨fun h => (by cases h), ?_⟩
    rintro v ⟨⟩
    exact ⟨.initializersRun hshape hf hf' hfunctions, .initializersRun hshape⟩
  · rename_i hmissing
    rw [Bool.and_eq_true, hdeferred, hnone] at hmissing
    refine ⟨fun _ hbreaks => ?_, fun v h => (by cases h)⟩
    cases hbreaks with
    | initializersRun hshape' hf hf' hfunctions =>
      obtain rfl := Shape.classShape.inj (hshape.symm.trans hshape')
      exact hmissing ⟨⟨_, hf, hf'⟩, hfunctions⟩

/-! #### Constants and constructors -/

theorem valuelessConst?_eq_none_iff (f : Field) : valuelessConst? f = none ↔ ¬ IsValueless f := by
  have hiff : storage f = "const" ∧ f.initializer.isNone = true ↔ IsValueless f := by
    rw [storage_eq_const_iff, Option.isNone_iff_eq_none, and_assoc]
    rfl
  rw [← hiff, valuelessConst?, ite_eq_right_iff]
  simp

theorem valuelessConst?_decides {d : Declaration} {part : ClassPart}
    (hshape : d.shape = .classShape part) :
    Decides (Breaks d .valuedConstants) (fun v => Reports d .valuedConstants v.member v)
      (part.fields.findSome? valuelessConst?) := by
  constructor
  · intro h hbreaks
    cases hbreaks with
    | valuedConstants hshape' hf hvalueless =>
      obtain rfl := Shape.classShape.inj (hshape.symm.trans hshape')
      exact (valuelessConst?_eq_none_iff _).mp (List.findSome?_eq_none_iff.mp h _ hf) hvalueless
  · intro v h
    obtain ⟨f, hf, hfirst⟩ := isFirst_of_findSome? valuelessConst?_eq_none_iff h
    obtain rfl : Violation.constWithoutValue f.name = v := by
      unfold valuelessConst? at hf
      split at hf
      · exact Option.some.inj hf
      · cases hf
    exact ⟨.valuedConstants hshape hfirst.mem hfirst.prop, .valuedConstants hshape hfirst⟩

theorem returnsValue_iff (f : Function) : returnsValue f.returnType = true ↔ ReturnsValue f := by
  unfold ReturnsValue
  cases f.returnType <;> simp [returnsValue]

theorem badFunction?_eq_none_iff (f : Function) :
    badFunction? f = none ↔ ¬ IsBadConstructor f := by
  unfold badFunction? badConstructor? IsBadConstructor
  rw [← returnsValue_iff, ← Bool.or_eq_true]
  cases f.isConstructor <;> cases returnsValue f.returnType <;>
    cases (f.isGetter || f.isSetter) <;> simp

theorem badFunction?_decides {d : Declaration} {part : ClassPart}
    (hshape : d.shape = .classShape part) :
    Decides (Breaks d .plainConstructors) (fun v => Reports d .plainConstructors v.member v)
      (d.functions.findSome? badFunction?) := by
  constructor
  · intro h hbreaks
    cases hbreaks with
    | plainConstructors _ hf hbad =>
      exact (badFunction?_eq_none_iff _).mp (List.findSome?_eq_none_iff.mp h _ hf) hbad
  · intro v h
    obtain ⟨f, hf, hfirst⟩ := isFirst_of_findSome? badFunction?_eq_none_iff h
    refine ⟨.plainConstructors hshape hfirst.mem hfirst.prop, ?_⟩
    -- what it returns is looked at before what kind of accessor it is
    unfold badFunction? badConstructor? at hf
    split at hf
    · split at hf
      · rename_i hreturns
        obtain rfl := Option.some.inj hf
        exact .constructorReturns hfirst ((returnsValue_iff f).mp hreturns)
      · rename_i hreturns
        split at hf
        · obtain rfl := Option.some.inj hf
          exact .constructorIsAccessor hfirst (mt (returnsValue_iff f).mpr hreturns)
        · cases hf
    · cases hf

/-- Each check decides its expectation. -/
theorem check_decides (d : Declaration) (e : Expectation) :
    Decides (Breaks d e) (fun v => Reports d e v.member v) (check d e) := by
  have hinterface : d.shape = .interfaceShape → e ≠ .typedParams → ¬ Breaks d e := by
    intro hshape he hbreaks
    have hclass : ∀ part, d.shape ≠ .classShape part := by simp [hshape]
    cases hbreaks with
    | typedParams => exact he rfl
    | distinctInterfaces hpart | typedFields hpart | freeName hpart | initializersRun hpart
    | valuedConstants hpart | plainConstructors hpart => exact hclass _ hpart
  cases hshape : d.shape with
  | interfaceShape =>
    cases e with
    | typedParams => simpa only [check] using untypedParam?_decides d
    | _ =>
      simp only [check, hshape]
      exact ⟨fun _ => hinterface hshape (by simp), fun v h => (by cases h)⟩
  | classShape part =>
    cases e with
    | distinctInterfaces => simpa only [check, hshape] using repeatedInterface?_decides hshape
    | typedFields => simpa only [check, hshape] using untypedField?_decides hshape
    | typedParams => simpa only [check] using untypedParam?_decides d
    | freeName => simpa only [check, hshape] using reservedMember?_decides hshape
    | initializersRun => simpa only [check, hshape] using missingConstructor?_decides hshape
    | valuedConstants => simpa only [check, hshape] using valuelessConst?_decides hshape
    | plainConstructors => simpa only [check, hshape] using badFunction?_decides hshape

/-! ### Rendering -/

/-- A violation is found just if an expectation is broken, and is that of the first one. -/
theorem violation?_decides (d : Declaration) :
    (violation? d = none ↔ ∀ e, ¬ Breaks d e) ∧
    ∀ v, violation? d = some v → ∃ e, IsFirst (Breaks d) expectations e ∧ Reports d e v.member v := by
  have hcheck : ∀ e, check d e = none ↔ ¬ Breaks d e := by
    intro e
    refine ⟨(check_decides d e).1, fun hnot => ?_⟩
    cases hfound : check d e with
    | none => rfl
    | some v => exact absurd ((check_decides d e).2 v hfound).1 hnot
  rw [violation?_eq_findSome?]
  constructor
  · have hall : ∀ e, e ∈ expectations := by
      intro e
      cases e <;> decide
    simp only [List.findSome?_eq_none_iff, hall, hcheck, true_implies]
  · intro v hv
    obtain ⟨e, he, hfirst⟩ := isFirst_of_findSome? hcheck hv
    exact ⟨e, hfirst, ((check_decides d e).2 v he).2⟩

/-- What is rendered lacks no reference and meets every expectation. -/
theorem not_breaks_of_render {n : Naming} {d : Declaration} {b : LineBuffer}
    (h : render n d = .ok b) : d.lacksReference = false ∧ ∀ e, ¬ Breaks d e := by
  obtain ⟨hfault, -⟩ := lines_of_render h
  unfold fault? at hfault
  split at hfault
  · cases hfault
  · rename_i hlacks
    rw [Option.map_eq_none_iff] at hfault
    exact ⟨Bool.eq_false_iff.mpr hlacks, (violation?_decides d).1.mp hfault⟩

/-- With a missing reference no expectation is looked at. -/
theorem render_eq_absentReference_iff (n : Naming) (d : Declaration) :
    render n d = .error (.breakdown .absentReference) ↔ d.lacksReference = true := by
  rw [render_eq, fault?]
  cases d.lacksReference with
  | true => simp
  | false => cases violation? d <;> simp

/-- Without one, rendering fails with the violation of the declaration. -/
theorem render_eq_error_iff (n : Naming) {d : Declaration} (hlacks : d.lacksReference = false)
    (error : RenderError) :
    render n d = .error error ↔ ∃ v, violation? d = some v ∧ error = .violation v := by
  rw [render_eq, fault?, hlacks]
  cases violation? d with
  | none => simp
  | some v => simp [eq_comm]

/-- The failure of a declaration whose rendering ends with a violation. -/
def unrendered (d : Declaration) (v : Violation) : Failure := ⟨d.name, .unrendered (.violation v)⟩

/-- A declaration without missing references fails to be rendered just if it breaks an
expectation.  The first one that is broken is reported, with the type by its own name and
the member that is at fault.  A declaration with a missing reference, which none is that has
been loaded, is not looked at any further. -/
theorem render_fails_iff_breaks (n : Naming) (d : Declaration) :
    (d.lacksReference = false →
      ((∃ error, render n d = .error error) ↔ ∃ e, Breaks d e) ∧
      ∀ error, render n d = .error error → ∃ e member v,
        error = .violation v ∧ IsFirst (Breaks d) expectations e ∧ Reports d e member v ∧
        generate (target n) d = .error (unrendered d v) ∧
        (unrendered d v).complaint = ⟨.declaration, d.name, member, .render, v.text⟩) ∧
    (render n d = .error (.breakdown .absentReference) ↔ d.lacksReference = true) ∧
    ∀ document ds, Document.load document = .ok ds → d ∈ ds → d.lacksReference = false := by
  obtain ⟨hnone, hsome⟩ := violation?_decides d
  refine ⟨fun hlacks => ⟨?_, ?_⟩, render_eq_absentReference_iff n d,
    fun document ds => Document.lacksReference_of_load⟩
  · constructor
    · rintro ⟨error, herror⟩
      obtain ⟨v, hv, -⟩ := (render_eq_error_iff n hlacks error).mp herror
      obtain ⟨e, hfirst, -⟩ := hsome v hv
      exact ⟨e, hfirst.prop⟩
    · rintro ⟨e, he⟩
      cases hv : violation? d with
      | none => exact absurd he (hnone.mp hv e)
      | some v => exact ⟨_, (render_eq_error_iff n hlacks _).mpr ⟨v, hv, rfl⟩⟩
  · intro error herror
    obtain ⟨v, hv, rfl⟩ := (render_eq_error_iff n hlacks error).mp herror
    obtain ⟨e, hfirst, hreport⟩ := hsome v hv
    refine ⟨e, v.member, v, rfl, hfirst, hreport, ?_, rfl⟩
    show (render n d).mapError _ = _
    rw [herror]
    rfl

/-- A class that breaks three expectations: of its constructors the second returns a value
and is an accessor, a constant has no value, and a parameter has no type. -/
def brokenClass : Declaration :=
  { name := "class"
    functions :=
      [{ name := "plain", isConstructor := true },
       { name := "bad", isConstructor := true, isGetter := true,
         returnType := some (.ofPrimitive "int") },
       { name := "run", params := [{ name := "a", type := some (.ofPrimitive "int") },
         { name := "b" }] }]
    shape := .classShape
      { fields := [{ name := "N", type := some (.ofPrimitive "int"), isConst := true }]
        interfaces := [{ name := "I", args := [{ name := "T" }] }, { name := "I" }] } }

/-- The parameter is reported. -/
theorem render_brokenClass :
    brokenClass.lacksReference = false ∧
      Breaks brokenClass .valuedConstants ∧ Breaks brokenClass .plainConstructors ∧
      ∃ e member v, render {} brokenClass = .error (.violation v) ∧
        IsFirst (Breaks brokenClass) expectations e ∧ Reports brokenClass e member v ∧
        (unrendered brokenClass v).complaint =
          ⟨.declaration, "class", some "run", .render, "parameter 'b' has no type"⟩ := by
  have hlacks : brokenClass.lacksReference = false := by decide +kernel
  have hrender : render {} brokenClass = .error (.violation (.untypedParam "run" "b")) := by
    rw [render_eq_error_iff {} hlacks]
    exact ⟨_, by decide +kernel, rfl⟩
  obtain ⟨e, member, v, hv, hfirst, hreport, -⟩ :=
    ((render_fails_iff_breaks {} brokenClass).1 hlacks).2 _ hrender
  obtain rfl := RenderError.violation.inj hv
  refine ⟨hlacks, ?_, ?_, e, member, _, hrender, hfirst, hreport, by decide +kernel⟩
  · exact .valuedConstants rfl List.mem_cons_self ⟨rfl, ⟨_, rfl, rfl⟩, rfl⟩
  · refine .plainConstructors rfl (List.mem_cons_of_mem _ List.mem_cons_self) ⟨rfl, .inl ?_⟩
    exact ⟨.ofPrimitive "int", rfl, by decide⟩

end SharpEmit.CSharp
