/-
SharpEmit/Proofs/CSharp/Initializers.lean

Where the initializers of fields are written.  The line of a field takes its initializer or
not, the method takes those that are deferred, and the storage of a field may be one that needs
a value on the spot.  `Places` says what becomes of one field, and `places_field` that its line
and its assignment are of one mind, for every type, every flag and every text of an
initializer.

Main result: in the lines of a class that is rendered, each initializer stands on the line of
its field or in one assignment of the method, and the assignments are those of the deferred
fields in order (`initializer_written_once`).  A field is meant by its place in the
declaration: two fields may have the same name and the same initializer.
-/
import Mathlib.Data.List.Forall2
import SharpEmit.Proofs.CSharp.Construction

namespace SharpEmit.CSharp

open Layout

/-! ### The line of a field -/

/-- The two lines of a field differ, whatever the initializer is. -/
theorem bareLine_ne_valueLine (f : Field) (init : String) : bareLine f ≠ valueLine f init := by
  intro h
  have hlength := congrArg String.length h
  simp only [bareLine, valueLine, String.length_append] at hlength
  have hequals : (" = " : String).length = 3 := by decide
  omega

/-- Only a constant of a primitive type is stored as one. -/
theorem storage_eq_const_iff (f : Field) :
    storage f = "const" ↔ f.isConst = true ∧ ∃ t, f.type = some t ∧ t.kind = .primitive := by
  unfold storage isPrimitiveField
  cases hconst : f.isConst with
  | false => cases f.isStatic <;> simp
  | true =>
    cases htype : f.type with
    | none => simp
    | some t => by_cases hkind : t.kind = .primitive <;> simp [TypeRef.isPrimitive, hkind]

/-! ### The place of an initializer -/

/-- What becomes of a field: its line, and its assignment in the method, if it has one. -/
inductive Places (f : Field) : String → Option String → Prop
  | bare : f.initializer = none → Places f (bareLine f) none
  | inline {init} : f.initializer = some init → ¬ IsDeferred f → Places f (valueLine f init) none
  | deferred {init} : f.initializer = some init → IsDeferred f →
      Places f (bareLine f) (some (assignment f init))

/-- The line of a field and its assignment are chosen by one condition. -/
theorem places_field (f : Field) : Places f (fieldText f) (assignment? f) := by
  unfold fieldText assignment?
  cases hinit : f.initializer with
  | none => exact .bare hinit
  | some init =>
    by_cases hdeferred : IsDeferred f
    · simp only [if_pos hdeferred]
      exact .deferred hinit hdeferred
    · simp only [if_neg hdeferred]
      exact .inline hinit hdeferred

theorem filterMap_assignment?_eq_nil_iff (fields : List Field) :
    fields.filterMap assignment? = [] ↔ ¬ ∃ f ∈ fields, IsDeferred f := by
  simp [List.filterMap_eq_nil_iff, assignment?_eq_none_iff]

/-- A field whose initializer is written once: on its line or as its assignment, and not as
both.  What is stored as a constant has its value on the line. -/
structure WrittenOnce (f : Field) (line : String) (assigned : Option String) : Prop where
  bare : f.initializer = none → line = bareLine f ∧ assigned = none
  lines : ∀ init, f.initializer = some init → line = valueLine f init ∨ line = bareLine f
  assignments : ∀ init, f.initializer = some init →
    assigned = some (assignment f init) ∨ assigned = none
  once : ∀ init, f.initializer = some init →
    Xor (line = valueLine f init) (assigned = some (assignment f init))
  deferred : assigned.isSome = true ↔ IsDeferred f
  constant : storage f = "const" →
    ∃ init, f.initializer = some init ∧ line = valueLine f init ∧ assigned = none

/-- A field is written once, if constants have values. -/
theorem Places.writtenOnce {f : Field} {line : String} {assigned : Option String}
    (h : Places f line assigned) (hconst : valuelessConst? f = none) :
    WrittenOnce f line assigned := by
  cases h with
  | bare hinit =>
    have hnot : ∀ init, f.initializer ≠ some init := by simp [hinit]
    refine ⟨fun _ => ⟨rfl, rfl⟩, ?_, ?_, ?_, ?_, ?_⟩
    · exact fun init hsome => absurd hsome (hnot init)
    · exact fun init hsome => absurd hsome (hnot init)
    · exact fun init hsome => absurd hsome (hnot init)
    · constructor
      · intro hsome
        cases hsome
      · rintro ⟨init, hsome, -⟩
        exact absurd hsome (hnot init)
    · intro hstorage
      simp [valuelessConst?, hstorage, hinit] at hconst
  | @inline init hinit hdeferred =>
    have hsame : ∀ init', f.initializer = some init' → init = init' :=
      fun init' hsome => Option.some.inj (hinit.symm.trans hsome)
    refine ⟨?_, ?_, ?_, ?_, ?_, ?_⟩
    · simp [hinit]
    · exact fun init' hsome => .inl (congrArg _ (hsame init' hsome))
    · exact fun _ _ => .inr rfl
    · intro init' hsome
      exact .inl ⟨congrArg _ (hsame init' hsome), by simp⟩
    · simp [hdeferred]
    · exact fun _ => ⟨init, hinit, rfl, rfl⟩
  | @deferred init hinit hdeferred =>
    have hsame : ∀ init', f.initializer = some init' → init = init' :=
      fun init' hsome => Option.some.inj (hinit.symm.trans hsome)
    refine ⟨?_, ?_, ?_, ?_, ?_, ?_⟩
    · simp [hinit]
    · exact fun _ _ => .inr rfl
    · exact fun init' hsome => .inl (by rw [hsame init' hsome])
    · intro init' hsome
      exact .inr ⟨by rw [hsame init' hsome], bareLine_ne_valueLine f init'⟩
    · simp [hdeferred]
    · -- a constant of a primitive type is never deferred
      intro hstorage
      obtain ⟨-, -, -, hnot⟩ := hdeferred
      exact absurd ((storage_eq_const_iff f).mp hstorage) hnot

/-! ### The lines of a class -/

/-- The lines of the method that runs deferred initializers; there is none without an
assignment. -/
def initializerLines (assignments : List String) : List String :=
  if assignments = [] then []
  else functionLines "private void __internalInitializeFields()" assignments

theorem linesAll_initializerLayout (part : ClassPart) :
    linesAll 2 (initializerLayout part) =
      initializerLines (part.fields.filterMap assignment?) := by
  unfold initializerLayout initializerLines
  simp only [filterMap_assignment?_eq_nil_iff]
  by_cases hdeferred : ∃ f ∈ part.fields, IsDeferred f
  · rw [if_pos hdeferred, if_neg (not_not_intro hdeferred)]
    exact linesAll_withBody _ _
  · rw [if_neg hdeferred, if_pos hdeferred, linesAll_nil]

/-- The lines of a class from its head on. -/
def classLines (n : Naming) (d : Declaration) (part : ClassPart)
    (rows : List (String × Option String)) : List String :=
  indented 1 (classText d part) :: "    \x7b" ::
    (rows.map (indented 2 ·.1) ++ initializerLines (rows.filterMap (·.2)) ++
      functionsLines n d part) ++ ["    \x7d", "\x7d"]

/-- Fields come first in a class, then the method, then the functions. -/
theorem linesAll_classBody (n : Naming) (d : Declaration) (part : ClassPart) :
    linesAll 2 (classBody n d part) =
      part.fields.map (fun f => indented 2 (fieldText f)) ++
        initializerLines (part.fields.filterMap assignment?) ++ functionsLines n d part := by
  have hfields : linesAll 2 (part.fields.map (.line ∘ fieldText)) =
      part.fields.map fun f => indented 2 (fieldText f) := by
    rw [← List.map_map, linesAll_map_line, List.map_map]
    rfl
  rw [classBody, linesAll_append, linesAll_append, hfields, linesAll_initializerLayout,
    linesAll_flatMap_functionLayout]

/-- A class comes last in its file. -/
theorem classLines_suffix_fileLayout (n : Naming) {d : Declaration} {part : ClassPart}
    (hshape : d.shape = .classShape part) :
    classLines n d part (part.fields.map fun f => (fieldText f, assignment? f)) <:+
      linesAll 0 (fileLayout n d) := by
  have htype : linesAll 1 (typeLayout n d) ++ ["\x7d"] =
      classLines n d part (part.fields.map fun f => (fieldText f, assignment? f)) := by
    rw [typeLayout_of_class n hshape, linesAll_append, linesAll_line, linesAll_block,
      linesAll_classBody, classLines, List.map_map, List.filterMap_map]
    simp only [List.cons_append, List.nil_append, List.append_assoc]
    rfl
  rw [← htype]
  exact typeLayout_suffix_fileLayout n d

/-- Each field of a class has a line in its file. -/
theorem fieldLine_mem (n : Naming) {d : Declaration} {part : ClassPart}
    (hshape : d.shape = .classShape part) {f : Field} (hf : f ∈ part.fields) :
    indented 2 (fieldLine f) ∈ linesAll 0 (fileLayout n d) := by
  rw [fieldLine_eq_text]
  apply (classLines_suffix_fileLayout n hshape).subset
  -- behind the head and the brace, in front of the method and the functions
  apply List.mem_cons_of_mem
  apply List.mem_cons_of_mem
  rw [List.map_map]
  exact List.mem_append_left _ (List.mem_append_left _ (List.mem_append_left _
    (List.mem_map_of_mem hf)))

theorem valuelessConst?_eq_none {d : Declaration} {part : ClassPart}
    (hshape : d.shape = .classShape part) (hfault : fault? d = none) {f : Field}
    (hf : f ∈ part.fields) : valuelessConst? f = none := by
  unfold fault? at hfault
  split at hfault
  · cases hfault
  · rw [Option.map_eq_none_iff] at hfault
    simp only [violation?, hshape, Option.orElse_eq_orElse, Option.orElse_eq_or,
      Option.or_eq_none_iff] at hfault
    exact List.findSome?_eq_none_iff.mp hfault.2.2.2.2.2.1 f hf

/-- In a class that is rendered, each field has a line of its own, and each initializer is
written once, on that line or as an assignment of the method.  The assignments are those of
the deferred fields in order; without one there is no method. -/
theorem initializer_written_once (n : Naming) {d : Declaration} {part : ClassPart}
    {b : LineBuffer} (hshape : d.shape = .classShape part) (hrender : render n d = .ok b) :
    ∃ rows : List (String × Option String),
      classLines n d part rows <:+ b.lines ∧
      List.Forall₂ (fun f row => WrittenOnce f row.1 row.2) part.fields rows ∧
      (initializerLines (rows.filterMap (·.2)) ≠ [] ↔ ∃ f ∈ part.fields, IsDeferred f) := by
  obtain ⟨hfault, hlines⟩ := lines_of_render hrender
  refine ⟨part.fields.map fun f => (fieldText f, assignment? f), ?_, ?_, ?_⟩
  · rw [hlines]
    exact classLines_suffix_fileLayout n hshape
  · rw [List.forall₂_map_right_iff, List.forall₂_same]
    intro f hf
    exact (places_field f).writtenOnce (valuelessConst?_eq_none hshape hfault hf)
  · have hassigned : (part.fields.map fun f => (fieldText f, assignment? f)).filterMap (·.2) =
        part.fields.filterMap assignment? := by
      rw [List.filterMap_map]
      rfl
    have hnone := filterMap_assignment?_eq_nil_iff part.fields
    rw [hassigned, ← not_iff_not, ← hnone, not_not]
    cases part.fields.filterMap assignment? with
    | nil => simp [initializerLines]
    | cons line lines => simp [initializerLines, functionLines]

/-- A constant with a value that is no literal, one of a class with such a value, a field with
a literal, one without an initializer, and two that are the same. -/
def variedPart : ClassPart :=
  { fields :=
      [{ name := "A", type := some (.ofPrimitive "int"), isConst := true, initializer := some "f()" },
       { name := "B", type := some { name := "List" }, isConst := true, initializer := some "g()" },
       { name := "c", type := some (.ofPrimitive "int"), initializer := some "1" },
       { name := "base", type := some (.ofPrimitive "int") },
       { name := "e", type := some (.ofPrimitive "int"), initializer := some "h()" },
       { name := "e", type := some (.ofPrimitive "int"), initializer := some "h()" }] }

/-- A class with these fields and a constructor. -/
def variedClass : Declaration :=
  { name := "Varied", functions := [{ name := "Varied", isConstructor := true }]
    shape := .classShape variedPart }

/-- Here the method has three assignments. -/
theorem initializer_written_once_varied :
    ∃ b rows, render {} variedClass = .ok b ∧
      classLines {} variedClass variedPart rows <:+ b.lines ∧
      List.Forall₂ (fun f row => WrittenOnce f row.1 row.2) variedPart.fields rows ∧
      variedPart.fields.map (fun f => (fieldLine f, assignment? f)) =
        [("public const int A = f();", none), ("public static List B;", some "B = g();"),
          ("public int c = 1;", none), ("public int @base;", none),
          ("public int e;", some "e = h();"), ("public int e;", some "e = h();")] := by
  have hfault : fault? variedClass = none := by decide +kernel
  obtain ⟨b, hb⟩ : ∃ b, render {} variedClass = .ok b := ⟨_, by rw [render_eq, hfault]⟩
  obtain ⟨rows, hlines, hrows, -⟩ := @initializer_written_once {} variedClass variedPart b rfl hb
  exact ⟨b, rows, hb, hlines, hrows, by decide +kernel⟩

end SharpEmit.CSharp
