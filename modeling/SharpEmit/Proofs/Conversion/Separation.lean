/-
SharpEmit/Proofs/Conversion/Separation.lean

Different types have different files.  Names that are joined to a root stand behind it with
slashes between them (`joinAll_eq`), whether the root is empty, ends in a slash or needs one; as
the names hold no slash themselves, they are read back from the path (`joinAll_inj`).  The last
name is that of the type, escaped if it is a reserved word, which is undone where no name begins
with the sign of escaped ones (`identifier_inj`).

Main result: two declarations have the same output path if and only if they have the same
package and the same name (`outputPath_eq_iff`).
-/
import SharpEmit.Proofs.Conversion.Success
import SharpEmit.Proofs.Text.Boundaries

namespace SharpEmit

/-! ### Names behind a root -/

namespace Path

/-- A text that can stand between slashes. -/
structure IsSegment (part : String) : Prop where
  ne_empty : part ≠ ""
  single : '/' ∉ part.toList

theorem isSegment_iff (part : String) : IsSegment part ↔ part ≠ "" ∧ '/' ∉ part.toList :=
  ⟨fun h => ⟨h.ne_empty, h.single⟩, fun h => ⟨h.1, h.2⟩⟩

instance (part : String) : Decidable (IsSegment part) :=
  decidable_of_iff _ (isSegment_iff part).symm

/-- A path with the slash that it needs before a name. -/
def withSlash (base : String) : String :=
  if base = "" ∨ base.toList.getLast? = some '/' then base else base ++ "/"

variable {base part : String} {parts parts' : List String}

theorem IsSegment.join_eq (h : IsSegment part) (base : String) :
    join base part = withSlash base ++ part := by
  unfold join withSlash
  rw [if_neg (by simp [isAbsolute_of_slash h.single])]
  split <;> rfl

/-- Behind a name another one needs a slash. -/
theorem IsSegment.withSlash_join (h : IsSegment part) (base : String) :
    withSlash (join base part) = withSlash base ++ part ++ "/" := by
  obtain ⟨c, hc⟩ : ∃ c, part.toList.getLast? = some c := by
    cases hlast : part.toList.getLast? with
    | none => exact absurd (by simpa using hlast) h.ne_empty
    | some c => exact ⟨c, rfl⟩
  have hslash : c ≠ '/' := by
    rintro rfl
    exact h.single (List.mem_of_getLast? hc)
  have hlast : (withSlash base ++ part).toList.getLast? = some c := by
    rw [String.toList_append, List.getLast?_append, hc]
    rfl
  rw [h.join_eq, withSlash, if_neg]
  rintro (hempty | hend)
  · rw [hempty] at hlast
    cases hlast
  · rw [hlast] at hend
    exact hslash (Option.some.inj hend)

/-- Joined names stand behind the root with slashes between them. -/
theorem joinAll_eq (h : ∀ part ∈ parts, IsSegment part) (hne : parts ≠ []) (base : String) :
    joinAll base parts = withSlash base ++ "/".intercalate parts := by
  induction parts generalizing base with
  | nil => exact absurd rfl hne
  | cons part parts ih =>
    have hpart := h part List.mem_cons_self
    cases parts with
    | nil =>
      rw [String.intercalate_singleton]
      exact hpart.join_eq base
    | cons next parts =>
      have hrest := ih (fun p hp => h p (List.mem_cons_of_mem part hp)) (by simp) (join base part)
      rw [hpart.withSlash_join] at hrest
      rw [String.intercalate_cons_cons, ← String.append_assoc, ← String.append_assoc]
      exact hrest

/-- A path from a root shows the names that were joined to it. -/
theorem joinAll_inj (h : ∀ part ∈ parts, IsSegment part) (h' : ∀ part ∈ parts', IsSegment part)
    (hne : parts ≠ []) (hne' : parts' ≠ []) :
    joinAll base parts = joinAll base parts' ↔ parts = parts' := by
  refine ⟨fun heq => ?_, fun heq => by rw [heq]⟩
  rw [joinAll_eq h hne, joinAll_eq h' hne', ← String.toList_inj, String.toList_append,
    String.toList_append] at heq
  have hlists := congrArg (List.splitOn '/') (List.append_cancel_left heq)
  rw [Text.splitOn_intercalate rfl (fun part hpart => (h part hpart).single) hne,
    Text.splitOn_intercalate rfl (fun part hpart => (h' part hpart).single) hne'] at hlists
  exact List.map_injective_iff.mpr (fun _ _ => String.toList_inj.mp) hlists

end Path

/-! ### Names of files -/

namespace CSharp

/-- Names that do not begin with the sign of escaped names are told apart. -/
theorem identifier_inj {name name' : String} (h : name.toList.head? ≠ some '@')
    (h' : name'.toList.head? ≠ some '@') : identifier name = identifier name' ↔ name = name' := by
  have hescaped : ∀ word : String, ("@" ++ word).toList.head? = some '@' := by
    intro word
    rw [String.toList_append]
    rfl
  refine ⟨fun heq => ?_, fun heq => by rw [heq]⟩
  unfold identifier at heq
  split at heq
  · split at heq
    · rw [← String.toList_inj, String.toList_append, String.toList_append] at heq
      exact String.toList_inj.mp (List.append_cancel_left heq)
    · exact absurd (heq ▸ hescaped name) h'
  · split at heq
    · exact absurd (heq ▸ hescaped name') h
    · exact heq

theorem isSegment_fileName {name : String} (h : '/' ∉ name.toList) :
    Path.IsSegment (identifier name ++ "." ++ "cs") := by
  refine ⟨fun hempty => ?_, fun hslash => ?_⟩
  · simp at hempty
  · have hmem : '/' ∈ (identifier name).toList := by simpa using hslash
    exact h (mem_identifier (by decide) hmem)

theorem isSegment_outputParts (n : Naming) {d : Declaration}
    (h : ∀ part ∈ d.name :: d.package, Path.IsSegment part) :
    ∀ part ∈ (target n).outputParts d, Path.IsSegment part := by
  intro part hpart
  rw [Target.outputParts, List.mem_append, List.mem_singleton] at hpart
  rcases hpart with hpart | rfl
  · exact h part (List.mem_cons_of_mem _ hpart)
  · exact isSegment_fileName (h d.name List.mem_cons_self).single

theorem outputParts_inj (n : Naming) {d e : Declaration} :
    (target n).outputParts d = (target n).outputParts e ↔
      d.package = e.package ∧ identifier d.name = identifier e.name := by
  constructor
  · intro h
    obtain ⟨hpackage, hfile⟩ := List.append_inj' h rfl
    have hname : identifier d.name ++ "." ++ "cs" = identifier e.name ++ "." ++ "cs" :=
      (List.cons.inj hfile).1
    rw [← String.toList_inj] at hname
    refine ⟨hpackage, String.toList_inj.mp ?_⟩
    simpa using hname
  · rintro ⟨hpackage, hname⟩
    have htype : (target n).typeName d = (target n).typeName e := hname
    rw [Target.outputParts, Target.outputParts, hpackage, htype]

/-- Two declarations have the same output path below a root if and only if they have the same
package and the same name.  The root may be any text. -/
theorem outputPath_eq_iff (n : Naming) (root : String) {d e : Declaration}
    (hd : ∀ part ∈ d.name :: d.package, Path.IsSegment part)
    (he : ∀ part ∈ e.name :: e.package, Path.IsSegment part)
    (hplain : d.name.toList.head? ≠ some '@') (hplain' : e.name.toList.head? ≠ some '@') :
    (target n).outputPath root d = (target n).outputPath root e ↔
      d.package = e.package ∧ d.name = e.name := by
  have hne : ∀ d, (target n).outputParts d ≠ [] := by
    intro d
    simp [Target.outputParts]
  rw [Target.outputPath_eq_joinAll, Target.outputPath_eq_joinAll,
    Path.joinAll_inj (isSegment_outputParts n hd) (isSegment_outputParts n he) (hne d) (hne e),
    outputParts_inj, identifier_inj hplain hplain']

/-- A package with a dot in a segment and one with a segment more, the root being empty or
ending in a slash, and the file of a reserved word. -/
theorem outputPath_eq_iff_dotted :
    (target {}).outputPath "" { name := "lock", package := ["a.b"] } = "a.b/@lock.cs" ∧
      (∀ root, (target {}).outputPath root { name := "lock", package := ["a.b"] } ≠
        (target {}).outputPath root { name := "lock", package := ["a", "b"] }) ∧
      (target {}).outputPath "o/" { name := "lock", package := ["a", "b"] } = "o/a/b/@lock.cs" := by
  refine ⟨by decide +kernel, fun root h => ?_, by decide +kernel⟩
  have hsame := (outputPath_eq_iff {} root (d := { name := "lock", package := ["a.b"] })
    (e := { name := "lock", package := ["a", "b"] }) (by decide +kernel) (by decide +kernel)
    (by decide +kernel) (by decide +kernel)).mp h
  exact absurd hsame.1 (by decide)

/-- With the sign of escaped names in front, a name may share the file of a reserved word. -/
example : (target {}).outputPath "o" { name := "@lock" } =
    (target {}).outputPath "o" { name := "lock" } := by decide +kernel

end CSharp

end SharpEmit
