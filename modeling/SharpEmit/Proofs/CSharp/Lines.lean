/-
SharpEmit/Proofs/CSharp/Lines.lean

What the lines of a file say, written out as they read: words with spaces between them,
parameters in parentheses, bases and the call of another constructor behind a colon.  The
spelling of names, types and namespaces and the recognition of literals are taken as they are;
they have theories of their own.

The emitter puts each line together from pieces, and asks more than once where an initializer
belongs and what runs it.  It comes to the texts that are written here (`delegateLine_eq_text`
and those after it), in which `IsDeferred` and `CallsOwnClass` alone decide on that.
-/
import SharpEmit.CSharp.Emission

namespace SharpEmit.CSharp

/-! ### Words and lists -/

/-- Words with spaces between them. -/
def words (ws : List String) : String := " ".intercalate ws

theorem words_two (s t : String) : words [s, t] = s ++ " " ++ t := by
  simp [words, String.append_assoc]

theorem words_cons (s t : String) (ws : List String) :
    words (s :: t :: ws) = s ++ " " ++ words (t :: ws) := by
  simp [words, String.append_assoc]

/-- A parameter list. -/
def parameters (params : List Param) : String :=
  "(" ++ ", ".intercalate (params.map fun p => words [optionalTypeName p.type, identifier p.name]) ++
    ")"

theorem parameters_eq (params : List Param) : parameters params = "(" ++ paramsText params ++ ")" := by
  simp only [parameters, words_two]
  rfl

/-! ### Interfaces and function types -/

/-- A function type. -/
def delegateText (a : Alias) : String :=
  words ["public delegate", optionalTypeName a.returnType, identifier a.name] ++
    parameters a.params ++ ";"

/-- The head of an interface. -/
def interfaceText (d : Declaration) : String := words ["public interface", identifier d.name]

/-- A function of an interface. -/
def signatureText (n : Naming) (f : Function) : String :=
  words [optionalTypeName f.returnType, functionName n f] ++ parameters f.params ++ ";"

/-- What returns no value is spelled as `void`, whether that is asked first or not. -/
theorem returnText_eq (type : Option TypeRef) : returnText type = optionalTypeName type := by
  unfold returnText
  split
  · rfl
  · rename_i hnone
    cases type with
    | none => rfl
    | some t =>
      obtain ⟨name, package, args, kind⟩ := t
      obtain rfl : kind = .void := by simpa [returnsValue] using hnone
      rw [optionalTypeName, typeName, if_pos (.inl rfl)]

theorem delegateLine_eq_text (a : Alias) : delegateLine a = delegateText a := by
  unfold delegateLine delegateText
  rw [returnText_eq, parameters_eq, words_cons, words_two]
  simp [String.append_assoc]

theorem interfaceHead_eq_text (d : Declaration) : interfaceHead d = interfaceText d := by
  rw [interfaceText, words_two]
  rfl

theorem signatureLine_eq_text (n : Naming) (f : Function) :
    signatureLine n f = signatureText n f := by
  rw [signatureLine, signatureText, parameters_eq, words_two]
  simp [String.append_assoc]

/-! ### Classes -/

/-- What a class extends and implements, behind a colon. -/
def basesText (part : ClassPart) : String :=
  match part.base, part.interfaces with
  | none, [] => ""
  | none, t :: ts => " : " ++ ", ".intercalate ((t :: ts).map typeName)
  | some base, ts => " : " ++ ", ".intercalate ((base :: ts).map typeName)

/-- The head of a class. -/
def classText (d : Declaration) (part : ClassPart) : String :=
  words [if part.isFinal then "public sealed class" else "public class", identifier d.name] ++
    basesText part

theorem inheritance_eq_text (part : ClassPart) : inheritance part = basesText part := by
  unfold inheritance basesText
  cases part.base with
  | some base => rfl
  | none => cases part.interfaces <;> rfl

theorem classHead_eq_text (d : Declaration) (part : ClassPart) :
    classHead d part = classText d part := by
  rw [classHead, classText, inheritance_eq_text, words_two]
  cases part.isFinal with
  | false => rfl
  | true => rfl

/-! ### Fields -/

/-- The initializer of a field cannot stay on its line: it is no literal, and the field is no
constant of a primitive type. -/
def IsDeferred (f : Field) : Prop :=
  ∃ init, f.initializer = some init ∧ isLiteral init = false ∧
    ¬ (f.isConst = true ∧ ∃ t, f.type = some t ∧ t.kind = .primitive)

theorem isDeferred_iff (f : Field) :
    (f.initializer.isSome && !isInline f) = true ↔ IsDeferred f := by
  unfold IsDeferred isInline
  cases f.initializer with
  | none => simp
  | some init =>
    cases htype : f.type with
    | none => simp [isPrimitiveField, htype]
    | some t => cases f.isConst <;> simp [isPrimitiveField, htype, TypeRef.isPrimitive, and_comm]

instance (f : Field) : Decidable (IsDeferred f) := decidable_of_iff _ (isDeferred_iff f)

theorem mem_deferredFields_iff {f : Field} {fields : List Field} :
    f ∈ deferredFields fields ↔ f ∈ fields ∧ IsDeferred f := by
  rw [deferredFields, List.mem_filter, isDeferred_iff]

theorem exists_isDeferred_iff (part : ClassPart) :
    (∃ f ∈ part.fields, IsDeferred f) ↔ (!(deferredFields part.fields).isEmpty) = true := by
  simp [List.eq_nil_iff_forall_not_mem, mem_deferredFields_iff]

/-- How a field is stored. -/
def storageWords (f : Field) : List String :=
  match f.isConst, f.type with
  | true, some t => if t.kind = .primitive then ["const"] else ["static"]
  | true, none => ["static"]
  | false, _ => if f.isStatic then ["static"] else []

/-- A field without its initializer: who may use it, how it is stored, its type and its
name. -/
def fieldHead (f : Field) : String :=
  words ([f.visibility.word] ++ storageWords f ++ [optionalTypeName f.type, identifier f.name])

/-- The line of a field that shows no initializer. -/
def bareLine (f : Field) : String := fieldHead f ++ ";"

/-- The line of a field that shows its initializer. -/
def valueLine (f : Field) (init : String) : String := fieldHead f ++ " = " ++ init ++ ";"

/-- The assignment of an initializer to a field. -/
def assignment (f : Field) (init : String) : String := identifier f.name ++ " = " ++ init ++ ";"

/-- The line of a field. -/
def fieldText (f : Field) : String :=
  match f.initializer with
  | none => bareLine f
  | some init => if IsDeferred f then bareLine f else valueLine f init

/-- The assignment of a field in the method that runs deferred initializers, if it has one. -/
def assignment? (f : Field) : Option String :=
  match f.initializer with
  | none => none
  | some init => if IsDeferred f then some (assignment f init) else none

theorem assignment?_eq_none_iff (f : Field) : assignment? f = none ↔ ¬ IsDeferred f := by
  unfold assignment?
  cases hinit : f.initializer with
  | none => simp [IsDeferred, hinit]
  | some init => by_cases hdeferred : IsDeferred f <;> simp [hdeferred]

theorem storage_eq_words (f : Field) :
    (if storage f = "" then [] else [storage f]) = storageWords f := by
  unfold storage storageWords isPrimitiveField
  cases f.isConst with
  | false => cases f.isStatic <;> simp
  | true =>
    cases f.type with
    | none => simp
    | some t => by_cases hkind : t.kind = .primitive <;> simp [TypeRef.isPrimitive, hkind]

theorem fieldLine_eq (f : Field) :
    fieldLine f = fieldHead f ++ (if isInline f then " = " ++ f.initializer.getD "" else "") ++
      ";" := by
  rw [fieldLine, fieldHead, ← storage_eq_words]
  by_cases hstorage : storage f = ""
  · simp [hstorage, words, String.append_assoc]
  · simp [hstorage, words, String.append_assoc]

theorem fieldLine_eq_text (f : Field) : fieldLine f = fieldText f := by
  have hdeferred := isDeferred_iff f
  rw [fieldLine_eq, fieldText]
  cases hinit : f.initializer with
  | none => simp [isInline, hinit, bareLine]
  | some init =>
    rw [hinit, Option.isSome_some, Bool.true_and, Bool.not_eq_true'] at hdeferred
    dsimp only
    by_cases h : IsDeferred f
    · rw [hdeferred.mpr h, if_pos h]
      simp [bareLine]
    · have hinline : isInline f = true := by
        rw [← hdeferred] at h
        simpa using h
      rw [hinline, if_neg h]
      simp [valueLine, String.append_assoc]

/-- The assignments of the method are those of the fields that have one, in order. -/
theorem map_assignmentLine_deferredFields (fields : List Field) :
    (deferredFields fields).map assignmentLine = fields.filterMap assignment? := by
  rw [deferredFields, ← List.filterMap_eq_map, List.filterMap_filter]
  congr 1
  funext f
  have hdeferred := isDeferred_iff f
  unfold assignment?
  cases hinit : f.initializer with
  | none => simp
  | some init =>
    rw [hinit] at hdeferred
    by_cases h : IsDeferred f
    · rw [if_pos (hdeferred.mpr h)]
      simp [h, assignmentLine, assignment, hinit]
    · rw [if_neg (fun hinline => h (hdeferred.mp hinline))]
      simp [h]

/-! ### Functions of a class -/

/-- The words in front of the result of a method: who may use it, and how it is bound. -/
def methodWords (isFinal : Bool) (f : Function) : List String :=
  f.visibility.word ::
    (if f.isStatic then ["static"]
    else if f.isOverride then ["override"]
    else if f.visibility = .priv ∨ isFinal then []
    else ["virtual"])

/-- The head of a method. -/
def methodText (n : Naming) (isFinal : Bool) (f : Function) : String :=
  words (methodWords isFinal f ++ [optionalTypeName f.returnType, functionName n f]) ++
    parameters f.params

/-- The head of a constructor up to its parameters. -/
def constructorStart (d : Declaration) (f : Function) : String :=
  words [f.visibility.word, identifier d.name] ++ parameters f.params

/-- The call of another constructor, behind a colon. -/
def callText : Option Chain → String
  | none => ""
  | some ⟨.sameClass, args⟩ => " : this(" ++ ", ".intercalate args ++ ")"
  | some ⟨.baseClass, args⟩ => " : base(" ++ ", ".intercalate args ++ ")"

/-- The constructor calls another one of its class first. -/
def CallsOwnClass (f : Function) : Prop := ∃ args, f.chain = some ⟨.sameClass, args⟩

theorem chainsToSameClass_iff (f : Function) : chainsToSameClass f = true ↔ CallsOwnClass f := by
  unfold chainsToSameClass CallsOwnClass
  cases hchain : f.chain with
  | none => simp
  | some c =>
    obtain ⟨kind, args⟩ := c
    simp

instance (f : Function) : Decidable (CallsOwnClass f) :=
  decidable_of_iff _ (chainsToSameClass_iff f)

/-- The head of a function of a class. -/
def writtenHead (n : Naming) (d : Declaration) (part : ClassPart) (f : Function) : String :=
  if f.isConstructor then constructorStart d f ++ callText f.chain
  else methodText n part.isFinal f

/-- The body of a function of a class.  Where initializers are deferred, a constructor calls
them first, unless another one of the class has done so. -/
def writtenBody (part : ClassPart) (f : Function) : List String :=
  if f.isConstructor ∧ (∃ g ∈ part.fields, IsDeferred g) ∧ ¬ CallsOwnClass f then
    "__internalInitializeFields();" :: f.body
  else f.body

/-- Of a method the modifier is asked for as that of a function, which may be a constructor. -/
theorem methodHead_eq_text (n : Naming) (isFinal : Bool) {f : Function}
    (hf : f.isConstructor = false) : methodHead n isFinal f = methodText n isFinal f := by
  have hwords : f.visibility.word ::
      (if functionModifier isFinal f = "" then [] else [functionModifier isFinal f]) =
        methodWords isFinal f := by
    unfold functionModifier methodWords
    rw [hf]
    cases f.isStatic <;> cases f.isOverride <;> cases isFinal <;>
      by_cases hpriv : f.visibility = .priv <;> simp [hpriv]
  rw [methodHead, methodText, ← hwords, returnText_eq, parameters_eq]
  by_cases hmodifier : functionModifier isFinal f = ""
  · simp [hmodifier, words, String.append_assoc]
  · simp [hmodifier, words, String.append_assoc]

theorem chainText_eq_text (chain : Option Chain) : chainText chain = callText chain := by
  cases chain with
  | none => rfl
  | some c =>
    obtain ⟨kind, args⟩ := c
    cases kind with
    | sameClass => rfl
    | baseClass => rfl

theorem writtenHead_of_constructor (n : Naming) (d : Declaration) (part : ClassPart) {f : Function}
    (hf : f.isConstructor = true) : writtenHead n d part f = constructorHead d f := by
  rw [writtenHead, if_pos hf, constructorHead, chainText_eq_text, constructorStart, parameters_eq]
  simp [words, String.append_assoc]

theorem writtenHead_of_method (n : Naming) (d : Declaration) (part : ClassPart) {f : Function}
    (hf : f.isConstructor = false) : writtenHead n d part f = methodHead n part.isFinal f := by
  rw [methodHead_eq_text n part.isFinal hf]
  exact if_neg (by simp [hf])

theorem writtenBody_of_constructor (part : ClassPart) {f : Function} (hf : f.isConstructor = true) :
    writtenBody part f = constructorBody f !(deferredFields part.fields).isEmpty := by
  have hcall : (f.isConstructor = true ∧ (∃ g ∈ part.fields, IsDeferred g) ∧ ¬ CallsOwnClass f) ↔
      (!(deferredFields part.fields).isEmpty && !chainsToSameClass f) = true := by
    rw [exists_isDeferred_iff, ← chainsToSameClass_iff]
    simp [hf]
  simp only [writtenBody, constructorBody, hcall]
  rfl

theorem writtenBody_of_method (part : ClassPart) {f : Function} (hf : f.isConstructor = false) :
    writtenBody part f = f.body := if_neg (by simp [hf])

end SharpEmit.CSharp
