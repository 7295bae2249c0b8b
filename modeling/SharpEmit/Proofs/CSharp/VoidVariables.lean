/-
SharpEmit/Proofs/CSharp/VoidVariables.lean

Variables of type `void`.  A file declares variables in four kinds of lines: the parameters of
a delegate, of a function of a class and of a signature of an interface, and a field
(`Declares`).  There C# allows no `void`.  What would be written so for want of a type is kept
out: fields and parameters of functions are looked at before a file is rendered, and a reader
gives every variable a type, also the parameters of delegates, at which nobody looks
(`load_typed`).

So the type itself must be spelled as `void`.  There are two ways to this, by its kind and by
its name, and for a type that was read they are one (`typeName_eq_void_iff_of_follows`): names are
escaped, so no other name comes out as the word.

Main result: nothing that is loaded fails for want of a type; and once rendered, a variable is
written as `void` just if its document says `void`, which is not looked at
(`void_variable_iff`).
-/
import SharpEmit.Proofs.CSharp.Signatures
import SharpEmit.Proofs.CSharp.Validity
import SharpEmit.Proofs.Document.Correspondence

namespace SharpEmit

/-! ### Types that are missing -/

/-- Every variable of a declaration has a type. -/
structure Declaration.Typed (d : Declaration) : Prop where
  aliases : ∀ a ∈ d.aliases, ∀ p ∈ a.params, p.type ≠ none
  fields : ∀ part, d.shape = .classShape part → ∀ f ∈ part.fields, f.type ≠ none
  functions : ∀ f ∈ d.functions, ∀ p ∈ f.params, p.type ≠ none

namespace Document

theorem TypedFrom.type_ne_none {value : Json} {name : String} {type : Option TypeRef}
    (h : TypedFrom value name type) : type ≠ none := by
  cases h with
  | mk _ _ _ => exact Option.some_ne_none _

theorem SignatureFrom.typed {value : Json} {name : String} {returnType : Option TypeRef}
    {params : List Param} (h : SignatureFrom value name returnType params) :
    ∀ p ∈ params, p.type ≠ none := by
  cases h with
  | mk _ _ hparams =>
    intro p hp
    obtain ⟨item, hitem⟩ := hparams.exists_item p hp
    exact TypedFrom.type_ne_none hitem

theorem DeclarationFrom.typed {value : Json} {d : Declaration} (h : DeclarationFrom value d) :
    d.Typed := by
  cases h with
  | mk _ haliases hfunctions hpart =>
    constructor
    · intro a ha
      obtain ⟨item, hitem⟩ := haliases.exists_item a ha
      exact SignatureFrom.typed hitem
    · intro part hshape f hf
      obtain ⟨item, hitem⟩ := (hpart part hshape).fields.exists_item f hf
      exact TypedFrom.type_ne_none hitem
    · intro f hf
      obtain ⟨item, hitem⟩ := hfunctions.exists_item f hf
      exact SignatureFrom.typed hitem

theorem load_typed (document : Json) : Gives (∀ d ∈ ·, Declaration.Typed d) (load document) := by
  unfold load
  split
  · exact each_gives (fun place value d hd => (declarationAt_from place value d hd).typed) _ _
  · exact .error _

end Document

namespace CSharp

open Layout
open Document (Follows load)

/-- The checks for missing types find nothing where there are types. -/
theorem not_breaks_of_typed {d : Declaration} (h : d.Typed) :
    ¬ Breaks d .typedFields ∧ ¬ Breaks d .typedParams := by
  constructor
  · intro hbreaks
    cases hbreaks with
    | typedFields hshape hf hnone => exact h.fields _ hshape _ hf hnone
  · intro hbreaks
    cases hbreaks with
    | typedParams hf hp hnone => exact h.functions _ hf _ hp hnone

/-! ### Types spelled as the word -/

/-- Of all names only the word itself is spelled so, and only without a package. -/
theorem typeHead_eq_void_iff (name : String) (package : List String) :
    typeHead name package = "void" ↔ name = "void" ∧ package = [] := by
  have hkeyword : "void" ∈ keywords := by decide +kernel
  have hbuiltin : ∀ e ∈ builtinTypes, e.2 = "void" → e.1 = "void" := by decide +kernel
  constructor
  · intro hhead
    rcases typeHead_cases name package with hname | ⟨hpackage, hmem⟩
    · -- a name that is a word of the language is escaped
      rw [← hhead, hname] at hkeyword
      exact absurd hkeyword (identifier_not_mem_keywords name)
    · exact ⟨hbuiltin _ hmem hhead, hpackage⟩
  · rintro ⟨rfl, rfl⟩
    decide +kernel

/-- A type is spelled so by its kind, or by its name if it has no arguments. -/
theorem typeName_eq_void_iff (t : TypeRef) :
    typeName t = "void" ↔
      t.kind = .void ∨ t.kind = .absent ∨ t.name = "void" ∧ t.package = [] ∧ t.args = [] := by
  obtain ⟨name, package, args, kind⟩ := t
  rw [← String.toList_inj, toList_typeName, erased, ← or_assoc]
  by_cases hkind : kind = .void ∨ kind = .absent
  · rw [if_pos hkind]
    exact iff_of_true (by simp [TypeTree.chars, TypeTree.bracketed]) (.inl hkind)
  · rw [if_neg hkind, TypeTree.chars]
    refine Iff.trans ?_ (or_iff_right hkind).symm
    cases args with
    | nil =>
      rw [erasedAll, TypeTree.bracketed, List.append_nil, String.toList_inj, typeHead_eq_void_iff]
      simp
    | cons a args =>
      refine iff_of_false (fun hchars => ?_) (by simp)
      -- with arguments there is a bracket
      have hbracket : '<' ∉ "void".toList := by decide
      apply hbracket
      rw [← hchars, erasedAll, TypeTree.bracketed]
      exact List.mem_append_right _ List.mem_cons_self

theorem kindOf_eq_void_iff (scope : List String) (name : String) (package : List String) :
    Document.kindOf scope name package = .void ↔ name = "void" ∧ package = [] := by
  unfold Document.kindOf
  by_cases hpackage : package = []
  · by_cases hname : name = "void"
    · simp [hpackage, hname]
    · rw [if_neg (not_not_intro hpackage), if_neg hname]
      refine iff_of_false ?_ fun h => hname h.1
      split
      · simp
      · split <;> simp
  · simp [hpackage]

/-- Of a type that was read, the kind says what the name says. -/
theorem typeName_eq_void_iff_of_follows {scope : List String} {t : TypeRef}
    (h : Follows scope t) : typeName t = "void" ↔ t.name = "void" ∧ t.package = [] := by
  rw [typeName_eq_void_iff, h.kind_eq, kindOf_eq_void_iff]
  constructor
  · rintro (hword | habsent | ⟨hname, hpackage, -⟩)
    · exact hword
    · exact absurd habsent (Document.kindOf_ne_absent scope t.name t.package)
    · exact ⟨hname, hpackage⟩
  · exact .inl

/-! ### Lines with variables -/

/-- The lines of a file that declare variables, and the variables that each declares. -/
inductive Declares (n : Naming) (d : Declaration) : String → List Param → Prop
  | delegate {a : Alias} : a ∈ d.aliases → Declares n d (indented 1 (delegateLine a)) a.params
  | field {part : ClassPart} {f : Field} : d.shape = .classShape part → f ∈ part.fields →
      Declares n d (indented 2 (fieldLine f)) [⟨f.name, f.type⟩]
  | function {part : ClassPart} {f : Function} : d.shape = .classShape part → f ∈ d.functions →
      Declares n d (indented 2 (writtenHead n d part f)) f.params
  | signature {f : Function} : d.shape = .interfaceShape → f ∈ methods d →
      Declares n d (indented 2 (signatureLine n f)) f.params

section Declares

variable {n : Naming} {d : Declaration} {line : String} {vs : List Param}

theorem delegateLine_mem (n : Naming) {d : Declaration} {a : Alias} (ha : a ∈ d.aliases) :
    indented 1 (delegateLine a) ∈ linesAll 0 (fileLayout n d) := by
  apply (block_suffix_fileLayout n d).subset
  rw [linesAll_append, linesAll_map_line, delegateLine_eq_text]
  apply List.mem_append_left
  exact List.mem_append_left _ (List.mem_map_of_mem (List.mem_map_of_mem ha))

theorem Declares.line_mem (h : Declares n d line vs) : line ∈ linesAll 0 (fileLayout n d) := by
  cases h with
  | delegate ha => exact delegateLine_mem n ha
  | field hshape hf => exact fieldLine_mem n hshape hf
  | function hshape hf => exact writtenHead_mem n hshape hf
  | signature hshape hf =>
    apply (interfaceLines_suffix_fileLayout n hshape).subset
    -- behind the head and the brace
    apply List.mem_cons_of_mem
    apply List.mem_cons_of_mem
    exact List.mem_append_left _ (List.mem_map_of_mem (List.mem_map_of_mem hf))

theorem writtenHead_spelled (n : Naming) (d : Declaration) (part : ClassPart) (f : Function) :
    ∃ lead tail, writtenHead n d part f = lead ++ paramsText f.params ++ tail := by
  cases hf : f.isConstructor with
  | true =>
    rw [writtenHead_of_constructor n d part hf]
    exact ⟨f.visibility.word ++ " " ++ identifier d.name ++ "(", ")" ++ chainText f.chain,
      by simp [constructorHead, String.append_assoc]⟩
  | false =>
    rw [writtenHead_of_method n d part hf, methodHead_eq]
    exact ⟨spaced (leadingWords part.isFinal f) ++ optionalTypeName f.returnType ++ " " ++
      functionName n f ++ "(", ")", by simp [bareHead, String.append_assoc]⟩

/-- The variables stand in their line one after the other. -/
theorem Declares.spelled (h : Declares n d line vs) :
    ∃ lead tail, line = lead ++ paramsText vs ++ tail := by
  have hmargin : ∀ depth text, (∃ lead tail, text = lead ++ paramsText vs ++ tail) →
      ∃ lead tail, indented depth text = lead ++ paramsText vs ++ tail := by
    rintro depth text ⟨lead, tail, htext⟩
    unfold indented
    split
    · rename_i hempty
      exact ⟨lead, tail, hempty.symm.trans htext⟩
    · exact ⟨String.ofList (List.replicate (4 * depth) ' ') ++ lead, tail,
        by simp [htext, String.append_assoc]⟩
  cases h with
  | @delegate a ha =>
    exact hmargin 1 _ ⟨"public delegate " ++ returnText a.returnType ++ " " ++ identifier a.name ++
      "(", ");", rfl⟩
  | @field part f hshape hf =>
    refine hmargin 2 _ ⟨f.visibility.word ++ " " ++ (if storage f = "" then "" else storage f ++ " "),
      (if isInline f then " = " ++ f.initializer.getD "" else "") ++ ";", ?_⟩
    simp [fieldLine, paramsText, paramText, String.append_assoc]
  | function hshape hf => exact hmargin 2 _ (writtenHead_spelled n d _ _)
  | @signature f hshape hf =>
    exact hmargin 2 _ ⟨optionalTypeName f.returnType ++ " " ++ functionName n f ++ "(", ");", rfl⟩

theorem Declares.typed (h : Declares n d line vs) (htyped : d.Typed) :
    ∀ p ∈ vs, p.type ≠ none := by
  cases h with
  | delegate ha => exact htyped.aliases _ ha
  | field hshape hf => exact List.forall_mem_singleton.mpr (htyped.fields _ hshape _ hf)
  | function _ hf => exact htyped.functions _ hf
  | signature _ hf => exact htyped.functions _ (List.mem_filter.mp hf).1

theorem Declares.names (h : Declares n d line vs) {p : Param} (hp : p ∈ vs) {t : TypeRef}
    (ht : p.type = some t) : d.Names t := by
  cases h with
  | delegate ha => exact .aliasParam ha hp ht
  | field hshape hf =>
    obtain rfl := List.mem_singleton.mp hp
    exact .field hshape hf ht
  | function _ hf => exact .param hf hp ht
  | signature _ hf => exact .param (List.mem_filter.mp hf).1 hp ht

end Declares

/-- Nothing that is loaded fails for want of a type.  Once it is rendered, each of its variables
stands in a line of the file, its type in front of its name; and that type is spelled as `void`
if and only if it has this name and no package. -/
theorem void_variable_iff (n : Naming) {document : Json} {ds : List Declaration} {d : Declaration}
    (hload : load document = .ok ds) (hd : d ∈ ds) :
    ¬ Breaks d .typedFields ∧ ¬ Breaks d .typedParams ∧
    ∀ b, render n d = .ok b → ∀ line vs, Declares n d line vs →
      line ∈ b.lines ∧
      (∃ lead tail, line = lead ++ ", ".intercalate (vs.map paramText) ++ tail) ∧
      ∀ p ∈ vs, ∃ t, p.type = some t ∧ paramText p = typeName t ++ " " ++ identifier p.name ∧
        (typeName t = "void" ↔ t.name = "void" ∧ t.package = []) := by
  have htyped : d.Typed := Document.load_typed document ds hload d hd
  obtain ⟨hfields, hparams⟩ := not_breaks_of_typed htyped
  refine ⟨hfields, hparams, fun b hrender line vs hline => ⟨?_, hline.spelled, fun p hp => ?_⟩⟩
  · rw [(lines_of_render hrender).2]
    exact hline.line_mem
  · obtain ⟨t, ht⟩ := Option.ne_none_iff_exists'.mp (hline.typed htyped p hp)
    obtain ⟨scope, hscope⟩ := Document.load_gives_follows document ds hload d hd
    have hmentions : d.Mentions t := ⟨t, hline.names hp ht, .self⟩
    have hfollows : Follows scope t := hscope t (Declaration.mem_references_iff.mpr hmentions)
    have htext : paramText p = typeName t ++ " " ++ identifier p.name := by
      rw [paramText, ht, optionalTypeName]
    exact ⟨t, ht, htext, typeName_eq_void_iff_of_follows hfollows⟩

/-- A delegate and a function with a parameter of type `void`, and a field whose type has that
name in a package. -/
def voidDocument : Json :=
  .obj [("types", .arr [.obj [("name", .str "A"),
    ("functionTypes", .arr [.obj [("name", .str "Done"),
      ("params", .arr [.obj [("name", .str "code"), ("type", .str "void")]])]]),
    ("fields", .arr [.obj [("name", .str "y"), ("type", .str "x.void")]]),
    ("functions", .arr [.obj [("name", .str "run"),
      ("params", .arr [.obj [("name", .str "v"),
        ("type", .obj [("name", .str "void"), ("args", .arr [.str "int"])])]])]])]])]

/-- What is read of it. -/
def voidClass : Declaration :=
  { name := "A"
    aliases := [{ name := "Done", params := [⟨"code", some { name := "void", kind := .void }⟩] }]
    functions :=
      [{ name := "run",
         params := [⟨"v", some { name := "void", args := [.ofPrimitive "int"], kind := .void }⟩] }]
    shape := .classShape
      { fields := [{ name := "y", type := some { name := "void", package := ["x"] } }] } }

/-- The parameters are written as `void` and the field is not. -/
theorem void_variable_iff_class :
    load voidDocument = .ok [voidClass] ∧ ∃ b, render {} voidClass = .ok b ∧
      "    public delegate void Done(void code);" ∈ b.lines ∧
      "        public virtual void run(void v)" ∈ b.lines ∧
      "        public @void y;" ∈ b.lines ∧
      typeName { name := "void", args := [.ofPrimitive "int"], kind := .void } = "void" ∧
      typeName { name := "void", package := ["x"] } ≠ "void" := by
  have hload : load voidDocument = .ok [voidClass] := rfl
  have hfault : fault? voidClass = none := by decide +kernel
  obtain ⟨b, hb⟩ := exists_render_of_fault? {} hfault
  obtain ⟨-, -, hlines⟩ := void_variable_iff {} hload List.mem_cons_self
  obtain ⟨hdelegate, -⟩ := hlines b hb _ _ (.delegate List.mem_cons_self)
  obtain ⟨hrun, -, hparam⟩ := hlines b hb _ _ (.function rfl List.mem_cons_self)
  obtain ⟨hfield, -, htype⟩ := hlines b hb _ _ (.field rfl List.mem_cons_self)
  obtain ⟨t, ht, -, hvoid⟩ := hparam _ List.mem_cons_self
  obtain ⟨u, hu, -, hclass⟩ := htype _ List.mem_cons_self
  cases ht
  cases hu
  refine ⟨hload, b, hb, hdelegate, hrun, hfield, hvoid.mpr ⟨rfl, rfl⟩, fun hword => ?_⟩
  exact absurd (hclass.mp hword).2 (by decide)

/-- A class with a field of type `void`. -/
def voidFieldClass : Declaration :=
  { name := "A"
    shape := .classShape
      { fields := [{ name := "x", type := some { name := "void", kind := .void } }] } }

/-- The class is loaded and rendered, and the field is written as it is. -/
theorem void_field_written :
    load (.obj [("types", .arr [.obj [("name", .str "A"),
        ("fields", .arr [.obj [("name", .str "x"), ("type", .str "void")]])]])]) =
      .ok [voidFieldClass] ∧
    ∃ b, render {} voidFieldClass = .ok b ∧ "        public void x;" ∈ b.lines := by
  have hfault : fault? voidFieldClass = none := by decide +kernel
  obtain ⟨b, hb⟩ := exists_render_of_fault? {} hfault
  refine ⟨rfl, b, hb, ?_⟩
  rw [(lines_of_render hb).2]
  decide +kernel

end CSharp

end SharpEmit
