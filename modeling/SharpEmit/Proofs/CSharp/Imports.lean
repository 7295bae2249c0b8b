/-
SharpEmit/Proofs/CSharp/Imports.lean

The namespaces that a file imports.  A declaration names types in seven kinds of places
(`Declaration.Names`), and with a type it mentions all that occur among its arguments, at any
depth (`Declaration.Mentions`).  The walk that lists references finds these and no others
(`Declaration.mem_references_iff`): a reference is within what is pending before a step if and
only if it is the one taken, or within what is pending after it.

Main result: between the first two empty lines of a file stand the imports, in strictly
increasing order, of the namespaces of those classes that are mentioned and belong to another
package (`imports_exact`).
-/
import Mathlib.Data.List.Sort
import SharpEmit.Proofs.CSharp.Layout

namespace SharpEmit

/-! ### Texts in order -/

namespace Text

theorem mem_sortedDistinct {s : String} {ss : List String} : s ∈ sortedDistinct ss ↔ s ∈ ss := by
  rw [sortedDistinct, List.mem_eraseDups, List.mem_mergeSort]

/-- In a sorted list without its repeats every text is smaller than those after it. -/
theorem pairwise_lt_eraseDups {ss : List String} (h : ss.Pairwise (· ≤ ·)) :
    ss.eraseDups.Pairwise (· < ·) := by
  match ss, h with
  | [], _ => exact .nil
  | s :: rest, h =>
    obtain ⟨hfirst, hrest⟩ := List.pairwise_cons.mp h
    have hshorter : (rest.filter fun t => !t == s).length ≤ rest.length :=
      List.length_filter_le _ rest
    rw [List.eraseDups_cons]
    refine List.pairwise_cons.mpr ⟨fun t ht => ?_, pairwise_lt_eraseDups (hrest.filter _)⟩
    rw [List.mem_eraseDups, List.mem_filter] at ht
    rw [← String.not_le]
    intro hle
    obtain rfl : s = t := String.le_antisymm (hfirst t ht.1) hle
    simp at ht
termination_by ss.length

theorem pairwise_lt_sortedDistinct (ss : List String) :
    (sortedDistinct ss).Pairwise (· < ·) := by
  refine pairwise_lt_eraseDups ?_
  have hsorted := @List.pairwise_mergeSort String (fun a b => decide (a ≤ b))
    (by simpa using fun _ _ _ => String.le_trans) (by simpa using String.le_total) ss
  simpa using hsorted

end Text

/-! ### Mentioned types -/

/-- A reference is another one, or within an argument of it. -/
inductive TypeRef.Within (u : TypeRef) : TypeRef → Prop
  | self : Within u u
  | arg {t a : TypeRef} : a ∈ t.args → Within u a → Within u t

theorem TypeRef.within_iff {u t : TypeRef} : u.Within t ↔ u = t ∨ ∃ a ∈ t.args, u.Within a := by
  constructor
  · intro h
    cases h with
    | self => exact .inl rfl
    | arg ha hu => exact .inr ⟨_, ha, hu⟩
  · rintro (rfl | ⟨a, ha, hu⟩)
    · exact .self
    · exact .arg ha hu

theorem TypeRef.mem_withArgs_iff {u : TypeRef} {pending : List TypeRef} :
    u ∈ withArgs pending ↔ ∃ t ∈ pending, u.Within t := by
  fun_induction withArgs pending with
  | case1 => simp
  | case2 t pending ih =>
    -- the reference in front makes way for its arguments
    have hfront : (∃ s ∈ t :: pending, u.Within s) ↔ u.Within t ∨ ∃ s ∈ pending, u.Within s := by
      simp
    rw [List.mem_cons, ih, hfront, within_iff]
    simp only [List.mem_append, or_and_right, exists_or, or_assoc]

namespace Declaration

/-- The types that a declaration names: those of the results and parameters of its function
types and functions and, for a class, its base, its interfaces and the types of its fields. -/
inductive Names (d : Declaration) : TypeRef → Prop
  | aliasResult {a : Alias} {t : TypeRef} : a ∈ d.aliases → a.returnType = some t → d.Names t
  | aliasParam {a : Alias} {p : Param} {t : TypeRef} :
      a ∈ d.aliases → p ∈ a.params → p.type = some t → d.Names t
  | base {part : ClassPart} {t : TypeRef} :
      d.shape = .classShape part → part.base = some t → d.Names t
  | interface {part : ClassPart} {t : TypeRef} :
      d.shape = .classShape part → t ∈ part.interfaces → d.Names t
  | field {part : ClassPart} {f : Field} {t : TypeRef} :
      d.shape = .classShape part → f ∈ part.fields → f.type = some t → d.Names t
  | result {f : Function} {t : TypeRef} : f ∈ d.functions → f.returnType = some t → d.Names t
  | param {f : Function} {p : Param} {t : TypeRef} :
      f ∈ d.functions → p ∈ f.params → p.type = some t → d.Names t

/-- The types that occur in those that a declaration names. -/
def Mentions (d : Declaration) (u : TypeRef) : Prop := ∃ t, d.Names t ∧ u.Within t

variable {d : Declaration} {t : TypeRef}

theorem mem_paramTypes_iff {params : List Param} :
    t ∈ paramTypes params ↔ ∃ p ∈ params, p.type = some t := List.mem_filterMap

theorem mem_shapeTypes_iff {shape : Shape} :
    t ∈ shape.types ↔ ∃ part, shape = .classShape part ∧
      (part.base = some t ∨ t ∈ part.interfaces ∨ ∃ f ∈ part.fields, f.type = some t) := by
  cases shape with
  | interfaceShape => simp [Shape.types]
  | classShape part => simp [Shape.types]

theorem mem_signatureTypes_iff : t ∈ d.signatureTypes ↔ d.Names t := by
  simp only [signatureTypes, List.mem_append, List.mem_flatMap, mem_paramTypes_iff,
    mem_shapeTypes_iff, Option.mem_toList]
  constructor
  · rintro ((⟨a, ha, h | ⟨p, hp, h⟩⟩ | ⟨part, hshape, h | h | ⟨f, hf, h⟩⟩) |
      ⟨f, hf, h | ⟨p, hp, h⟩⟩)
    · exact .aliasResult ha h
    · exact .aliasParam ha hp h
    · exact .base hshape h
    · exact .interface hshape h
    · exact .field hshape hf h
    · exact .result hf h
    · exact .param hf hp h
  · intro h
    cases h with
    | aliasResult ha h => exact .inl (.inl ⟨_, ha, .inl h⟩)
    | aliasParam ha hp h => exact .inl (.inl ⟨_, ha, .inr ⟨_, hp, h⟩⟩)
    | base hshape h => exact .inl (.inr ⟨_, hshape, .inl h⟩)
    | interface hshape h => exact .inl (.inr ⟨_, hshape, .inr (.inl h)⟩)
    | field hshape hf h => exact .inl (.inr ⟨_, hshape, .inr (.inr ⟨_, hf, h⟩)⟩)
    | result hf h => exact .inr ⟨_, hf, .inl h⟩
    | param hf hp h => exact .inr ⟨_, hf, .inr ⟨_, hp, h⟩⟩

/-- The references of a declaration are the types that it mentions. -/
theorem mem_references_iff : t ∈ d.references ↔ d.Mentions t := by
  simp only [references, TypeRef.mem_withArgs_iff, mem_signatureTypes_iff]
  rfl

end Declaration

namespace CSharp

open Layout

variable {n : Naming} {d : Declaration}

/-! ### Imported namespaces -/

/-- A class of a package other than the declaration's own. -/
structure IsForeign (d : Declaration) (t : TypeRef) : Prop where
  kind : t.kind = .classType
  packaged : t.package ≠ []
  other : t.package ≠ d.package

theorem mem_imports_iff {name : String} :
    name ∈ imports n d ↔ ∃ t, d.Mentions t ∧ IsForeign d t ∧ n.namespaceOf t.package = name := by
  rw [imports, Text.mem_sortedDistinct, List.mem_filterMap]
  refine exists_congr fun t => and_congr Declaration.mem_references_iff ?_
  constructor
  · intro h
    split at h
    · rename_i hforeign
      exact ⟨⟨hforeign.1, hforeign.2.1, hforeign.2.2⟩, Option.some.inj h⟩
    · cases h
  · rintro ⟨hforeign, rfl⟩
    exact if_pos ⟨hforeign.kind, hforeign.packaged, hforeign.other⟩

/-! ### The head of a file -/

theorem indented_zero (text : String) : indented 0 text = text := by
  unfold indented
  split
  · rename_i hempty
    exact hempty.symm
  · exact String.empty_append

theorem importText_ne_empty (name : String) : "using " ++ name ++ ";" ≠ "" := by
  intro h
  have hlist := congrArg String.toList h
  simp at hlist

/-- A file begins with the import of `System`, an empty line, the other imports and another
empty line. -/
theorem lines_fileLayout (n : Naming) (d : Declaration) :
    ∃ rest, linesAll 0 (fileLayout n d) =
      "using System;" :: "" ::
        ((imports n d).filter (· ≠ "System")).map (fun name => "using " ++ name ++ ";") ++
          "" :: rest := by
  refine ⟨linesAll 0 [.line ("namespace " ++ n.namespaceOf d.package),
    .block (d.aliases.map (.line ∘ delegateText) ++ typeLayout n d)], ?_⟩
  have hbody : fileLayout n d =
      ["using System;", ""].map .line ++
        (((imports n d).filter (· ≠ "System")).map (fun name => "using " ++ name ++ ";")).map
          .line ++ [.line ""] ++
          [.line ("namespace " ++ n.namespaceOf d.package),
            .block (d.aliases.map (.line ∘ delegateText) ++ typeLayout n d)] := by
    rw [List.map_map, List.append_assoc, List.append_assoc]
    exact List.append_assoc _ _ _
  have hplain : indented 0 = id := funext indented_zero
  rw [hbody, linesAll_append, linesAll_append, linesAll_append, linesAll_map_line,
    linesAll_map_line, linesAll_line, hplain, List.map_id, List.map_id]
  simp

/-- Between the first two empty lines of a rendered file stand the imports of a strictly
increasing row of names: of the namespaces, other than `System`, of all classes that the
declaration mentions at any depth and that belong to another package.  So every class of a
package that is mentioned is of the declaration's own package, or a line of the file imports its
namespace; `System` is imported in the first line. -/
theorem imports_exact (n : Naming) (d : Declaration) (b : LineBuffer) (h : render n d = .ok b) :
    ∃ names rest,
      b.lines = "using System;" :: "" :: names.map (fun name => "using " ++ name ++ ";") ++
        "" :: rest ∧
      (∀ line ∈ "using System;" :: names.map (fun name => "using " ++ name ++ ";"), line ≠ "") ∧
      names.Pairwise (· < ·) ∧
      (∀ name, name ∈ names ↔ name ≠ "System" ∧
        ∃ t, d.Mentions t ∧ IsForeign d t ∧ n.namespaceOf t.package = name) ∧
      ∀ t, d.Mentions t → t.kind = .classType → t.package ≠ [] →
        t.package = d.package ∨ n.namespaceOf t.package ∈ "System" :: names ∧
          "using " ++ n.namespaceOf t.package ++ ";" ∈ b.lines := by
  obtain ⟨-, hlines⟩ := lines_of_render h
  obtain ⟨rest, hrest⟩ := lines_fileLayout n d
  have hnames : ∀ name, name ∈ (imports n d).filter (· ≠ "System") ↔ name ≠ "System" ∧
      ∃ t, d.Mentions t ∧ IsForeign d t ∧ n.namespaceOf t.package = name := by
    intro name
    rw [List.mem_filter, mem_imports_iff, decide_eq_true_eq, and_comm]
  have hhead := hlines.trans hrest
  refine ⟨(imports n d).filter (· ≠ "System"), rest, hhead, ?_, ?_, hnames, ?_⟩
  · rw [List.forall_mem_cons, List.forall_mem_map]
    exact ⟨by decide, fun name _ => importText_ne_empty name⟩
  · exact (Text.pairwise_lt_sortedDistinct _).filter _
  · intro t ht hkind hpackage
    by_cases hown : t.package = d.package
    · exact .inl hown
    rw [hhead]
    by_cases hsystem : n.namespaceOf t.package = "System"
    · rw [hsystem]
      exact .inr ⟨List.mem_cons_self, List.mem_cons_self⟩
    · have hname := (hnames _).mpr ⟨hsystem, t, ht, ⟨hkind, hpackage, hown⟩, rfl⟩
      refine .inr ⟨List.mem_cons_of_mem _ hname, ?_⟩
      -- behind the first import and the empty line
      apply List.mem_append_left
      apply List.mem_cons_of_mem
      apply List.mem_cons_of_mem
      exact List.mem_map.mpr ⟨_, hname, rfl⟩

/-- A class of the package `app` that refers to `System`, to its own package, to a reserved
word as a package, and to a class deep among type arguments. -/
def importingClass : Declaration :=
  { name := "Foo"
    package := ["app"]
    aliases := [{ name := "Done", returnType := some (.ofQualified "System.Date" []) }]
    functions := [{ name := "run", params := [⟨"e", some (.ofQualified "lock.Event" [])⟩] }]
    shape := .classShape
      { base := some (.ofQualified "app.Base" [])
        fields := [{ name := "points", type := some (.ofQualified "Vector"
          [.ofQualified "app.List" [.ofQualified "geom.Point" []]]) }] } }

/-- The class deep among type arguments is imported, the reserved word is escaped, and neither
`System` nor the class's own package is imported once more. -/
theorem imports_importingClass :
    ∃ b rest, render {} importingClass = .ok b ∧
      b.lines = ["using System;", "", "using @lock;", "using geom;", ""] ++ rest ∧
      importingClass.Mentions (.ofQualified "geom.Point" []) ∧ "using geom;" ∈ b.lines := by
  have hfault : fault? importingClass = none := by decide +kernel
  obtain ⟨b, hb⟩ : ∃ b, render {} importingClass = .ok b := ⟨_, by rw [render_eq, hfault]⟩
  obtain ⟨names, rest, hlines, -, hsorted, hnames, himported⟩ := imports_exact {} importingClass b hb
  have hpoint : importingClass.Mentions (.ofQualified "geom.Point" []) :=
    ⟨_, .field rfl List.mem_cons_self rfl,
      .arg List.mem_cons_self (.arg List.mem_cons_self .self)⟩
  have hevent : importingClass.Mentions (.ofQualified "lock.Event" []) :=
    ⟨_, .param List.mem_cons_self List.mem_cons_self rfl, .self⟩
  -- all that is mentioned of other packages
  have hall : ∀ t ∈ importingClass.references, t.package ≠ [] →
      t.package ≠ importingClass.package → Naming.namespaceOf {} t.package ≠ "System" →
        Naming.namespaceOf {} t.package ∈ ["@lock", "geom"] := by decide +kernel
  obtain rfl : names = ["@lock", "geom"] := by
    refine hsorted.eq_of_mem_iff (by decide +kernel) fun name => ?_
    rw [hnames]
    constructor
    · rintro ⟨hsystem, t, ht, hforeign, rfl⟩
      exact hall t (Declaration.mem_references_iff.mpr ht) hforeign.packaged hforeign.other hsystem
    · intro hmem
      obtain rfl | rfl : name = "@lock" ∨ name = "geom" := by simpa using hmem
      · exact ⟨by decide, _, hevent, ⟨rfl, by decide +kernel, by decide +kernel⟩, by decide +kernel⟩
      · exact ⟨by decide, _, hpoint, ⟨rfl, by decide +kernel, by decide +kernel⟩, by decide +kernel⟩
  have hgeom := (himported _ hpoint rfl (by decide +kernel)).resolve_left (by decide +kernel)
  exact ⟨b, rest, hb, hlines, hpoint, hgeom.2⟩

end CSharp

end SharpEmit
